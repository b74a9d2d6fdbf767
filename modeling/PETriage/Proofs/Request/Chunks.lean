import PETriage.Proofs.Digest.Pieces
import PETriage.Proofs.Request.Reads
import PETriage.Proofs.Request.Traces

/-!
# Reading in chunks of any size

A stretch of a file is read by one loop and the whole file is taken in pieces by another. Both go
on from where the last read ended, not from where it was meant to end, so neither short reads nor
the size of the chunks show in what they come to. An `Advance` says what the requests and the
calls after each chunk look like up to some number of bytes; each round of the loop keeps it.
-/
namespace PETriage.Request

/-! ## Requests and calls -/

def Event.request? : Event → Option (Int × Int)
  | .read offset length _ => some (offset, length)
  | _ => none

def Event.gain? : Event → Option (Int × Int)
  | .gained done total => some (done, total)
  | _ => none

/-- The offset and the length of each request, the latest first. -/
def requests (log : List Event) : List (Int × Int) := log.filterMap Event.request?

/-- The calls after each chunk, in order: how much is done, and of how much. -/
def gains (log : List Event) : List (Int × Int) := (log.filterMap Event.gain?).reverse

theorem requests_append (own log : List Event) :
    requests (own ++ log) = requests own ++ requests log :=
  List.filterMap_append

theorem gains_append (own log : List Event) : gains (own ++ log) = gains log ++ gains own := by
  simp only [gains, List.filterMap_append, List.reverse_append]

theorem gains_gained (done total : Int) (log : List Event) :
    gains (.gained done total :: log) = gains log ++ [(done, total)] :=
  gains_append [.gained done total] log

/-- Neither requests nor calls after a chunk. -/
structure Aside (own : List Event) : Prop where
  unread : requests own = []
  untold : gains own = []

/-- What came after an earlier trace is so. -/
def Since (t₀ : Trace) (p : List Event → Prop) (t : Trace) : Prop :=
  ∃ own, t.log = own ++ t₀.log ∧ p own

/-- A call after a chunk comes back, whenever it is made; it reads nothing and makes no other such
call itself. -/
def Unobtrusive (onChunk : Int → Int → Step Unit) : Prop :=
  ∀ done total t, (onChunk done total).Leads t (fun _ => Since t Aside) fun _ _ => False

section

variable {w : Surroundings} {b : ByteArray} {t₀ t t' : Trace} {p q : List Event → Prop}
  {onChunk : Int → Int → Step Unit}

theorem since_self (t : Trace) (h : p []) : Since t p t := ⟨[], rfl, h⟩

theorem Since.trans (h : Since t₀ p t) {r : List Event → Prop} (h' : Since t r t')
    (hq : ∀ own log, r own → p log → q (own ++ log)) : Since t₀ q t' := by
  obtain ⟨log, hlog, hp⟩ := h
  obtain ⟨own, hown, hr⟩ := h'
  exact ⟨own ++ log, by rw [hown, hlog, List.append_assoc], hq own log hr hp⟩

theorem Since.cons (h : Since t₀ p t) {e : Event} (hlog : t'.log = e :: t.log)
    (hq : ∀ log, p log → q (e :: log)) : Since t₀ q t' := by
  obtain ⟨log, hlater, hp⟩ := h
  exact ⟨e :: log, by rw [hlog, hlater, List.cons_append], hq log hp⟩

theorem aside_of_none {e : Event} (hr : e.request? = none) (hg : e.gain? = none) : Aside [e] where
  unread := List.filterMap_cons_none hr
  untold := congrArg List.reverse (List.filterMap_cons_none hg)

theorem Unobtrusive.gives (h : Unobtrusive onChunk) (done total : Int) :
    (onChunk done total).Gives (.ok ()) := by
  intro t
  have ht := h done total t
  unfold Step.Leads at ht
  generalize (onChunk done total).run t = s at ht ⊢
  rcases s with ⟨stop | u, t'⟩
  · exact ht.elim
  · rfl

theorem unobtrusive_pure : Unobtrusive fun _ _ => pure () :=
  fun _ _ t => .pure (since_self t ⟨rfl, rfl⟩)

theorem unobtrusive_reportSpan (w : Surroundings) : Unobtrusive (reportSpan w) := by
  intro done total t
  refine .of_ok (emit_run w _ t) ?_
  rcases emitted_log w (spanValue 40 60 done total) t with h | ⟨v, h⟩
  · exact ⟨[], h, rfl, rfl⟩
  · exact ⟨[.progressed v], h, rfl, rfl⟩

/-! ## A stretch -/

/-- What the log of a stretch looks like once `done` bytes of it are read. -/
structure Advance (base length chunk done : Int) (log : List Event) : Prop where
  within : ∀ r ∈ requests log,
    base ≤ r.1 ∧ 0 < r.2 ∧ r.2 ≤ chunk ∧ r.1 + r.2 ≤ base + length
  rising : (gains log).Pairwise fun g g' => g.1 < g'.1
  told : ∀ g ∈ gains log, 0 < g.1 ∧ g.1 ≤ done ∧ g.2 = length
  latest : 0 < done → (gains log).getLast? = some (done, length)

section

variable {base length chunk done : Int} {log own : List Event}

theorem advance_nil (base length chunk : Int) : Advance base length chunk 0 [] where
  within := fun _ h => absurd h List.not_mem_nil
  rising := .nil
  told := fun _ h => absurd h List.not_mem_nil
  latest := fun h => absurd h (Int.lt_irrefl 0)

theorem Advance.aside (h : Advance base length chunk done log) (ho : Aside own) :
    Advance base length chunk done (own ++ log) where
  within := by rw [requests_append, ho.unread]; exact h.within
  rising := by rw [gains_append, ho.untold, List.append_nil]; exact h.rising
  told := by rw [gains_append, ho.untold, List.append_nil]; exact h.told
  latest := by rw [gains_append, ho.untold, List.append_nil]; exact h.latest

theorem Advance.read (h : Advance base length chunk done log) {offset most : Int} {got : Nat}
    (ho : base ≤ offset) (hpos : 0 < most) (hc : most ≤ chunk)
    (hl : offset + most ≤ base + length) :
    Advance base length chunk done (.read offset most got :: log) where
  within := List.forall_mem_cons.2 ⟨⟨ho, hpos, hc, hl⟩, h.within⟩
  rising := h.rising
  told := h.told
  latest := h.latest

theorem Advance.gained (h : Advance base length chunk done log) {done' : Int} (hd : 0 ≤ done)
    (hlt : done < done') : Advance base length chunk done' (.gained done' length :: log) where
  within := h.within
  rising := by
    rw [gains_gained, List.pairwise_append]
    refine ⟨h.rising, List.pairwise_singleton .., fun g hg g' hg' => ?_⟩
    rw [List.mem_singleton.1 hg']
    exact Int.lt_of_le_of_lt (h.told g hg).2.1 hlt
  told := by
    rw [gains_gained, List.forall_mem_append, List.forall_mem_singleton]
    refine ⟨fun g hg => ?_, Int.lt_of_le_of_lt hd hlt, Int.le_refl _, rfl⟩
    obtain ⟨hpos, hle, htotal⟩ := h.told g hg
    exact ⟨hpos, Int.le_trans hle (Int.le_of_lt hlt), htotal⟩
  latest := fun _ => by rw [gains_gained, List.getLast?_concat]

end

section

variable {base length chunk done : Nat}

theorem checkWanted_advances (h : Since t₀ (Advance base length chunk done) t) (offset : Int) :
    (checkWanted w offset).Leads t (fun _ => Since t₀ (Advance base length chunk done))
      fun _ _ => True :=
  checkWanted_leads h (h.cons rfl fun _ h => h.aside (aside_of_none rfl rfl)) trivial

/-- A piece that came in takes a stretch on by its size. -/
theorem Since.piece (ho : Unobtrusive onChunk)
    (h : Since t₀ (Advance base length chunk done) t) {piece : ByteArray} (hpos : 0 < piece.size) :
    (onChunk (done + piece.size) length).Leads (t.add (.gained (done + piece.size) length))
      (fun _ t => Since t₀ (Advance base length chunk (done + piece.size)) (t.add .paused))
      fun _ _ => True := by
  have htold : Since t₀ (Advance base length chunk (done + piece.size))
      (t.add (.gained (done + piece.size) length)) :=
    h.cons rfl fun _ h => h.gained (by omega) (by omega)
  refine (ho _ _ _).mono (fun _ t hown => ?_) fun _ _ _ => trivial
  have hcalled : Since t₀ (Advance base length chunk (done + piece.size)) t :=
    htold.trans hown fun _ _ ha h => h.aside ha
  exact hcalled.cons rfl fun _ h => h.aside (aside_of_none rfl rfl)

/-- The loop goes on to the end of a stretch. -/
theorem advance_rounds (hs : w.source.Serves b) (hc : 0 < chunk)
    (hb : 0 < length → base + length ≤ b.size) (ho : Unobtrusive onChunk) (t₀ : Trace) :
    Rounds w base length chunk onChunk
      (fun done _ t => ∃ n : Nat, done = n ∧ n ≤ length ∧ Since t₀ (Advance base length chunk n) t)
      (fun _ => Since t₀ (Advance base length chunk length)) fun _ _ => True where
  poll := by
    rintro _ pieces t ⟨done, rfl, hd, h⟩ -
    exact (checkWanted_advances h _).mono (fun _ _ h => ⟨done, rfl, hd, h⟩) fun _ _ h => h
  read := by
    rintro _ pieces t ⟨done, rfl, hd, h⟩ hlt
    have hlt := Int.ofNat_lt.1 hlt
    have hr := readAt_rest_returns hs hc hlt (hb (Nat.zero_lt_of_lt hlt))
    have hasked : (readAt w (base + done) (min chunk (length - done))).Leads t
        (fun _ => Since t₀ (Advance base length chunk done)) fun _ _ => True :=
      readAt_leads (fun piece _ => h.cons rfl fun _ h =>
        h.read (by omega) (by omega) (by omega) (by omega)) fun _ _ => trivial
    refine (hasked.and_ensures hr.ensures).mono (fun piece t h => ?_) fun _ _ h => h
    obtain ⟨hp, h⟩ := h
    have hle : piece.size ≤ length - done := Nat.le_trans hp.le (Nat.min_le_right ..)
    rw [if_neg (Nat.pos_iff_ne_zero.1 hp.pos)]
    refine (h.piece ho hp.pos).mono (fun _ t h => ?_) fun _ _ h => h
    exact ⟨done + piece.size, by rw [Int.natCast_add], by omega, by rwa [Int.natCast_add]⟩
  last := by
    rintro _ pieces t ⟨done, rfl, hd, h⟩ hle
    have hdone : done = length := Nat.le_antisymm hd (Int.ofNat_le.1 hle)
    exact hdone ▸ h

end

theorem readChunked_advances (hs : w.source.Serves b) {offset chunk : Int} (length : Int)
    (hoff : 0 ≤ offset) (hc : 0 < chunk) (ho : Unobtrusive onChunk) (t : Trace) :
    let total := clippedLength b.size offset length
    (readChunked w offset length chunk onChunk).Leads t
      (fun _ => Since t (Advance offset total chunk total)) fun _ _ => True := by
  obtain ⟨base, rfl⟩ := Int.eq_ofNat_of_zero_le hoff
  obtain ⟨chunk, rfl⟩ := Int.eq_ofNat_of_zero_le (Int.le_of_lt hc)
  simp only [readChunked, hs.size, clippedLength_eq _ _ hoff, Int.toNat_natCast]
  refine ((advance_rounds hs (Int.natCast_pos.1 hc) (by omega) ho t).leads ?_).bind
    fun _ _ h => .pure h
  exact ⟨0, rfl, Nat.zero_le _, since_self t (advance_nil _ _ _)⟩

/-! ## All pieces -/

/-- Pieces that make up the bytes, none of them empty or longer than a chunk. -/
structure Divides (chunk : Int) (b : ByteArray) (pieces : List ByteArray) : Prop where
  pos : ∀ piece ∈ pieces, 0 < piece.size
  le : ∀ piece ∈ pieces, piece.size ≤ chunk
  joined : Hashes.joined pieces = b

theorem divides_nil (chunk : Int) : Divides chunk .empty [] where
  pos := fun _ h => absurd h List.not_mem_nil
  le := fun _ h => absurd h List.not_mem_nil
  joined := rfl

theorem Divides.concat {chunk : Int} {front piece : ByteArray} {pieces : List ByteArray}
    (h : Divides chunk front pieces) (hpos : 0 < piece.size) (hle : piece.size ≤ chunk) :
    Divides chunk (front ++ piece) (pieces ++ [piece]) where
  pos := List.forall_mem_append.2 ⟨h.pos, List.forall_mem_singleton.2 hpos⟩
  le := List.forall_mem_append.2 ⟨h.le, List.forall_mem_singleton.2 hle⟩
  joined := by
    rw [Hashes.joined, List.foldl_append]
    exact congrArg (· ++ piece) h.joined

theorem piecesFrom_returns (hs : w.source.Serves b) (hw : w.StaysWanted) {chunk : Nat}
    (hc : 0 < chunk) {offset : Nat} (ho : offset ≤ b.size) {taken : List ByteArray}
    (h : Divides chunk (b.extract 0 offset) taken.reverse) :
    (piecesFrom w chunk offset taken).Returns fun r =>
      r.2 = none ∧ Divides chunk b r.1.reverse := by
  -- on the bytes that are left to read
  induction hm : b.size - offset using Nat.strongRecOn generalizing offset taken with
  | ind left ih =>
    rw [piecesFrom, hs.size]
    by_cases hlt : offset < b.size
    · have hr := readAt_returns hs hc offset (Nat.sub_pos_of_lt hlt) (by omega)
      rw [Int.natCast_sub ho] at hr
      rw [if_pos (Int.ofNat_lt.2 hlt)]
      have hnext := ((checkWanted_gives hw offset).returns.bind fun _ _ => hr).attempt
      refine hnext.bind fun r hr => ?_
      obtain ⟨piece, rfl, hp⟩ := hr
      have hpos := hp.pos
      have hle : piece.size ≤ chunk := Nat.le_trans hp.le (Nat.min_le_left ..)
      have hrest : piece.size ≤ b.size - offset := Nat.le_trans hp.le (Nat.min_le_right ..)
      simp only [Nat.pos_iff_ne_zero.1 hpos, ↓reduceIte]
      refine ih (b.size - (offset + piece.size)) (by omega) (by omega) ?_ rfl
      have hfront := h.concat hpos (Int.ofNat_le.2 hle)
      rwa [hp.after_front, ← List.reverse_cons] at hfront
    · have hend : offset = b.size := by omega
      rw [if_neg (by omega)]
      rw [hend, ByteArray.extract_zero_size] at h
      exact .pure ⟨rfl, h⟩

theorem pieces_returns (hs : w.source.Serves b) (hw : w.StaysWanted) {chunk : Int}
    (hc : 0 < chunk) : (pieces w chunk).Returns fun r => r.2 = none ∧ Divides chunk b r.1 := by
  obtain ⟨chunk, rfl⟩ := Int.eq_ofNat_of_zero_le (Int.le_of_lt hc)
  have hstart : Divides chunk (b.extract 0 0) ([] : List ByteArray).reverse :=
    ByteArray.extract_same ▸ divides_nil _
  have hr := piecesFrom_returns hs hw (Int.natCast_pos.1 hc) (Nat.zero_le _) hstart
  exact hr.bind fun r hr => .pure hr

/-! ## Any size of chunks -/

/-- With a source that serves its file, however short its answers are, a stretch comes in as it
stands in the file and the whole file in pieces that make it up. No request goes beyond the
stretch, and what is told after each chunk rises to the whole of it. The pieces are what reading
the file as one stretch gives, and digests that are fed with them say the same whatever the size
of the chunks is. -/
theorem chunked_reading_exact {σ : Type} (hs : w.source.Serves b) (hw : w.StaysWanted)
    (row : List (String × Digest.Running σ)) :
    (∀ offset length chunk : Int, 0 ≤ offset → 0 < chunk → ∀ onChunk, Unobtrusive onChunk → ∀ t,
      let total := max 0 (min length (b.size - offset))
      ∃ t', (readChunked w offset length chunk onChunk).run t =
          (.ok (Bytes.window b offset (offset + total)), t') ∧
        Since t (Advance offset total chunk total) t') ∧
    ∃ hashes : Hashes, ∀ chunk : Int, 0 < chunk → ∀ t, ∃ taken t',
      (pieces w chunk).run t = (.ok (taken, none), t') ∧
      (∀ piece ∈ taken, 0 < piece.size ∧ piece.size ≤ chunk) ∧
      Hashes.joined taken = b ∧
      (∀ chunk' : Int, 0 < chunk' → ∀ onChunk, Unobtrusive onChunk →
        (readChunked w 0 w.source.size chunk' onChunk).Gives (.ok (Hashes.joined taken))) ∧
      Hashes.running row taken = hashes ∧ Hashes.ofPieces taken = Hashes.ofBytes b := by
  constructor
  · intro offset length chunk hoff hc onChunk ho t
    have hvalue := readChunked_window hs hw length hoff hc ho.gives
    have hadvance := readChunked_advances hs length hoff hc ho t
    obtain ⟨_, t', hrun, rfl, hsince⟩ := hadvance.returned hvalue.returns
    exact ⟨t', hrun, hsince⟩
  · -- what the digests say of the pieces that one run gives, they say of all others
    obtain ⟨⟨first, _⟩, -, -, hfirst⟩ := pieces_returns hs hw Int.one_pos {}
    refine ⟨Hashes.running row first, fun chunk hc t => ?_⟩
    obtain ⟨⟨taken, failed⟩, hrun, rfl, hdivides⟩ := pieces_returns hs hw hc t
    refine ⟨taken, _, Prod.ext hrun rfl, fun piece hp => ⟨hdivides.pos _ hp, hdivides.le _ hp⟩,
      hdivides.joined, fun chunk' hc' onChunk ho => ?_, ?_, ?_⟩
    · rw [hdivides.joined]
      exact readChunked_whole hs hw hc' ho.gives
    · have hjoined := hdivides.joined.trans hfirst.joined.symm
      exact Hashes.running_congr row hdivides.pos hfirst.pos hjoined
    · exact congrArg Hashes.ofBytes hdivides.joined

/-- Bytes that come in slowly: read number `k` gives at most `more k + 1` of them. -/
def Source.dribbling (b : ByteArray) (more : Nat → Nat) : Source where
  size := b.size
  name := memoryName
  read k offset length := .ok (Bytes.window b offset (offset + min length (more k + 1)))

theorem Source.dribbling_serves (b : ByteArray) (more : Nat → Nat) :
    (Source.dribbling b more).Serves b where
  size := rfl
  read := by
    intro k offset length hl hb
    refine ⟨min length (more k + 1), by omega, Nat.min_le_left .., ?_⟩
    have hstop : (offset : Int) + min (length : Int) (more k + 1) =
        (offset + min length (more k + 1) : Nat) := by omega
    have hwindow := Bytes.window_of_le b (Nat.le_add_right offset (min length (more k + 1)))
      (by omega)
    rw [← hstop] at hwindow
    exact congrArg Except.ok hwindow

def nineBytes : ByteArray := Bytes.ofList [1, 2, 3, 4, 5, 6, 7, 8, 9]

/-- One byte comes in, then two, then three, and then one again. -/
def dribbled : Surroundings where
  source := .dribbling nineBytes (· % 3)
  wanted := some fun _ => true

theorem chunked_reading_exact_dribbled :
    dribbled.source.Serves nineBytes ∧ dribbled.StaysWanted ∧
    (∃ t', (readChunked dribbled 2 100 4 (reportSpan dribbled)).run {} =
        (.ok (Bytes.ofList [3, 4, 5, 6, 7, 8, 9]), t') ∧ Since {} (Advance 2 7 4 7) t') ∧
    ∃ hashes, ∀ chunk : Int, 0 < chunk → ∃ taken t',
      (pieces dribbled chunk).run {} = (.ok (taken, none), t') ∧
      Hashes.joined taken = nineBytes ∧ Hashes.running Hashes.identifying taken = hashes ∧
      (readChunked dribbled 0 9 5 fun _ _ => pure ()).Gives (.ok (Hashes.joined taken)) := by
  have hs : dribbled.source.Serves nineBytes := Source.dribbling_serves _ _
  have hw : dribbled.StaysWanted := by
    rintro _ ⟨⟩ _
    rfl
  obtain ⟨hstretch, hashes, hpieces⟩ := chunked_reading_exact hs hw Hashes.identifying
  refine ⟨hs, hw, ?_, hashes, fun chunk hc => ?_⟩
  · exact hstretch 2 100 4 (by decide) (by decide) _ (unobtrusive_reportSpan dribbled) {}
  · obtain ⟨taken, t', hrun, -, hjoined, hwhole, hhashes, -⟩ := hpieces chunk hc {}
    exact ⟨taken, t', hrun, hjoined, hhashes, hwhole 5 (by decide) _ unobtrusive_pure⟩

end
end PETriage.Request
