import PETriage.Proofs.Request.Steps

/-!
# Reads that are exact

A source serves a file when it answers every request inside the file with some bytes, and with
the right ones. However short the answers are and however they vary, a stretch that is read in
chunks is then the stretch of the file.
-/
namespace PETriage.Request

/-- A request for bytes inside the file is answered with a part of them from the front, and
not with none. -/
structure Source.Serves (s : Source) (b : ByteArray) : Prop where
  size : s.size = b.size
  read : ∀ k offset length : Nat, 0 < length → offset + length ≤ b.size →
    ∃ n, 0 < n ∧ n ≤ length ∧ s.read k offset length = .ok (b.extract offset (offset + n))

/-- Bytes in memory are served all at once. -/
theorem Source.ofBytes_serves (b : ByteArray) (name : String) :
    (Source.ofBytes b name).Serves b where
  size := rfl
  read := by
    intro k offset length hl hb
    refine ⟨length, hl, Nat.le_refl _, ?_⟩
    have hwindow := Bytes.window_of_le b (Nat.le_add_right offset length) hb
    rw [Int.natCast_add] at hwindow
    exact congrArg Except.ok hwindow

/-- A file that fits into memory answers every request inside it in full. -/
theorem Source.ofFile_serves (b : ByteArray) (name : String) (h : b.size < memoryLimit) :
    (Source.ofFile b name).Serves b where
  size := rfl
  read := by
    intro k offset length hl hb
    refine ⟨length, hl, Nat.le_refl _, ?_⟩
    have hreach : (offset : Int) + length < fileReach := by
      simp only [memoryLimit] at h
      simp only [fileReach]
      omega
    have hlongest : (length : Int) ≤ longestLength := by
      simp only [memoryLimit] at h
      simp only [longestLength]
      omega
    show fileWindow b offset length = _
    unfold fileWindow
    rw [if_neg (by omega), if_neg (by omega), if_neg (by omega), if_neg (by omega),
      if_neg (by omega), if_neg (by omega)]
    rfl

def Surroundings.StaysWanted (w : Surroundings) : Prop :=
  ∀ wanted ∈ w.wanted, ∀ k, wanted k = true

theorem checkWanted_gives {w : Surroundings} (hw : w.StaysWanted) (offset : Int) :
    (checkWanted w offset).Gives (.ok ()) := by
  intro t
  unfold checkWanted
  cases h : w.wanted with
  | none => rfl
  | some wanted =>
    simp only [Step.run_bind, Step.run_get, Step.run_set, Step.run_note, hw wanted h]
    rfl

section

variable {w : Surroundings} {b : ByteArray}

/-- Bytes of a file from an offset on, which are at least one and at most `most`. -/
structure PieceAt (b : ByteArray) (offset most : Nat) (piece : ByteArray) : Prop where
  pos : 0 < piece.size
  le : piece.size ≤ most
  shown : b.extract offset (offset + piece.size) = piece

theorem PieceAt.append {offset most stop : Nat} {piece : ByteArray}
    (h : PieceAt b offset most piece) (hle : offset + piece.size ≤ stop) :
    piece ++ b.extract (offset + piece.size) stop = b.extract offset stop := by
  rw [ByteArray.extract_eq_extract_append_extract _ (Nat.le_add_right offset piece.size) hle,
    h.shown]

theorem PieceAt.after_front {offset most : Nat} {piece : ByteArray}
    (h : PieceAt b offset most piece) :
    b.extract 0 offset ++ piece = b.extract 0 (offset + piece.size) := by
  rw [ByteArray.extract_eq_extract_append_extract offset (Nat.zero_le _) (Nat.le_add_right ..),
    h.shown]

theorem readAt_returns (hs : w.source.Serves b) {chunk : Nat} (hc : 0 < chunk) (offset : Nat)
    {left : Nat} (hl : 0 < left) (hb : offset + left ≤ b.size) :
    (readAt w offset (min chunk left)).Returns (PieceAt b offset (min chunk left)) := by
  intro t
  have hcast : ((min chunk left : Nat) : Int) = min (chunk : Int) left := by omega
  obtain ⟨n, hn, hnl, hr⟩ :=
    hs.read t.reads offset (min chunk left) (Nat.lt_min.2 ⟨hc, hl⟩) (by omega)
  have hsize : (b.extract offset (offset + n)).size = n := by
    rw [ByteArray.size_extract]
    omega
  rw [hcast] at hr
  refine ⟨b.extract offset (offset + n), by rw [readAt_run, hr], ?_, ?_, ?_⟩
  · rwa [hsize]
  · rwa [hsize]
  · rw [hsize]

theorem joinReversed_cons (piece : ByteArray) (pieces : List ByteArray) :
    joinReversed (piece :: pieces) = joinReversed pieces ++ piece := by
  simp only [joinReversed, List.reverse_cons, List.foldl_append, List.foldl_cons, List.foldl_nil]

theorem readAt_rest_returns (hs : w.source.Serves b) {base length chunk done : Nat}
    (hc : 0 < chunk) (hlt : done < length) (hb : base + length ≤ b.size) :
    (readAt w (base + done) (min chunk (length - done))).Returns
      (PieceAt b (base + done) (min chunk (length - done))) := by
  have hr := readAt_returns hs hc (base + done) (Nat.sub_pos_of_lt hlt) (by omega)
  rwa [Int.natCast_add, Int.natCast_sub (Nat.le_of_lt hlt)] at hr

/-- Each chunk adds the bytes that follow those taken before it. -/
theorem chunksFrom_returns (hs : w.source.Serves b) (hw : w.StaysWanted) (base length : Nat)
    {chunk : Nat} (hc : 0 < chunk) (hb : 0 < length → base + length ≤ b.size)
    {onChunk : Int → Int → Step Unit} (ho : ∀ done total, (onChunk done total).Gives (.ok ()))
    (done : Nat) (hd : done ≤ length) (pieces : List ByteArray) :
    (chunksFrom w base length chunk onChunk done pieces).Returns fun taken =>
      joinReversed taken = joinReversed pieces ++ b.extract (base + done) (base + length) := by
  -- on the bytes that are left to read
  induction hm : length - done using Nat.strongRecOn generalizing done pieces with
  | ind left ih =>
    rw [chunksFrom]
    by_cases hlt : done < length
    · have hb := hb (Nat.zero_lt_of_lt hlt)
      have hr := readAt_rest_returns hs hc hlt hb
      rw [if_pos (Int.ofNat_lt.2 hlt)]
      refine (checkWanted_gives hw _).returns.bind fun _ _ => hr.bind fun piece hp => ?_
      have hpos := hp.pos
      have hle : piece.size ≤ length - done := Nat.le_trans hp.le (Nat.min_le_right ..)
      simp only [Nat.pos_iff_ne_zero.1 hpos, ↓reduceIte]
      refine (note_gives _).returns.bind fun _ _ => ?_
      refine (ho _ _).returns.bind fun _ _ => pause_gives.returns.bind fun _ _ => ?_
      have hnext := ih (length - (done + piece.size)) (by omega) (done + piece.size) (by omega)
        (piece :: pieces) rfl
      rwa [joinReversed_cons, ByteArray.append_assoc, ← Nat.add_assoc, hp.append (by omega)]
        at hnext
    · have hdone : done = length := by omega
      rw [if_neg (by omega), hdone, ByteArray.extract_same, ByteArray.append_empty]
      exact Step.Returns.pure rfl

theorem clippedLength_eq (size : Nat) {offset : Int} (length : Int) (h : 0 ≤ offset) :
    clippedLength size offset length = (min length.toNat (size - offset.toNat) : Nat) := by
  unfold clippedLength
  omega

theorem window_clipped (b : ByteArray) (base : Nat) (length : Int) :
    Bytes.window b base (base + clippedLength b.size base length) =
      b.extract base (base + min length.toNat (b.size - base)) := by
  rw [clippedLength_eq _ _ (Int.natCast_nonneg base), Int.toNat_natCast, ← Int.natCast_add]
  rcases Nat.le_total base b.size with h | h
  · exact Bytes.window_of_le b (Nat.le_add_right ..) (by omega)
  · have hnone : min length.toNat (b.size - base) = 0 := by omega
    rw [hnone, Nat.add_zero, ByteArray.extract_same,
      Bytes.window_of_nonneg b (Int.natCast_nonneg _) (Int.natCast_nonneg _),
      ByteArray.extract_same]

/-- A stretch comes in whole, up to the end of the file. -/
theorem readChunked_window (hs : w.source.Serves b) (hw : w.StaysWanted)
    {offset chunk : Int} (length : Int) (ho : 0 ≤ offset) (hc : 0 < chunk)
    {onChunk : Int → Int → Step Unit} (hon : ∀ done total, (onChunk done total).Gives (.ok ())) :
    (readChunked w offset length chunk onChunk).Gives
      (.ok (Bytes.window b offset (offset + clippedLength b.size offset length))) := by
  obtain ⟨base, rfl⟩ := Int.eq_ofNat_of_zero_le ho
  obtain ⟨chunk, rfl⟩ := Int.eq_ofNat_of_zero_le (Int.le_of_lt hc)
  have hr := chunksFrom_returns hs hw base (min length.toNat (b.size - base))
    (Int.natCast_pos.1 hc) (by omega) hon 0 (Nat.zero_le _) []
  apply Step.Returns.gives
  rw [readChunked, window_clipped, hs.size, clippedLength_eq _ _ ho, Int.toNat_natCast]
  refine hr.bind fun taken ht => Step.Returns.pure ?_
  rw [ht, Nat.add_zero]
  exact ByteArray.empty_append

theorem readChunked_gives (hs : w.source.Serves b) (hw : w.StaysWanted) {chunk length : Int}
    (hc : 0 < chunk) (hl : 0 ≤ length) {onChunk : Int → Int → Step Unit}
    (ho : ∀ done total, (onChunk done total).Gives (.ok ())) :
    (readChunked w 0 length chunk onChunk).Gives (.ok (Bytes.window b 0 length)) := by
  have hr := readChunked_window hs hw length (Int.le_refl 0) hc ho
  have hclip : 0 + clippedLength b.size 0 length = min length b.size := by
    unfold clippedLength
    omega
  have hend : Bytes.endpoint b.size (min length b.size) = Bytes.endpoint b.size length := by
    rw [Bytes.endpoint_of_nonneg _ hl, Bytes.endpoint_of_nonneg _ (by omega)]
    omega
  rwa [hclip, Bytes.window, hend] at hr

theorem readChunked_whole (hs : w.source.Serves b) (hw : w.StaysWanted) {chunk : Int}
    (hc : 0 < chunk) {onChunk : Int → Int → Step Unit}
    (ho : ∀ done total, (onChunk done total).Gives (.ok ())) :
    (readChunked w 0 w.source.size chunk onChunk).Gives (.ok b) := by
  have hr := readChunked_gives hs hw hc (Int.natCast_nonneg w.source.size) ho
  have hwhole : Bytes.window b 0 b.size = b :=
    (Bytes.window_of_le b (Nat.zero_le _) (Nat.le_refl _)).trans ByteArray.extract_zero_size
  rwa [hs.size, hwhole, ← hs.size] at hr

theorem reportSpan_gives (w : Surroundings) (done total : Int) :
    (reportSpan w done total).Gives (.ok ()) :=
  emit_gives w _

theorem readAll_gives (hs : w.source.Serves b) (hw : w.StaysWanted) {config : Config}
    (hc : 0 < config.readChunkSize) : (readAll config w).Gives (.ok b) :=
  readChunked_whole hs hw hc (reportSpan_gives w)

end
end PETriage.Request
