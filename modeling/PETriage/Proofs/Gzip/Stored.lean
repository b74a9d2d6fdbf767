import PETriage.Gzip.Member
import PETriage.Proofs.Except

/-!
# Stored bytes read back

The writer puts its bytes into stored blocks, each with a number and its complement in front. The
reader passes over the rest of the byte that marks a block and takes as many bytes as that number
says, so it gets back what was written and stops behind the last block.
-/
namespace PETriage.Gzip

variable {xs body tail : List UInt8} {out : Array UInt8} {n : Nat}

theorem take_append (body tail : List UInt8) :
    Bits.take body.length ⟨[], body ++ tail⟩ = .ok (body, ⟨[], tail⟩) := by
  have hlength : body.length ≤ (body ++ tail).length := by simp
  rw [Bits.take, if_pos hlength, List.take_left, List.drop_left]

theorem takeBytes_append (body tail : List UInt8) :
    takeBytes body.length (body ++ tail) = .ok (body, tail) := by
  have hlength : body.length ≤ (body ++ tail).length := by simp
  rw [takeBytes, if_pos hlength, List.take_left, List.drop_left]

/-- The two numbers in front of a stored block. -/
def storedSizes (n : Nat) : List UInt8 := Bytes.unlittle 2 n ++ Bytes.unlittle 2 (0xFFFF - n)

theorem storedBlock_append (held : List Bool) (hn : body.length ≤ storedLimit) :
    storedBlock out ⟨held, storedSizes body.length ++ (body ++ tail)⟩ =
      .ok (out ++ body.toArray, ⟨[], tail⟩) := by
  have hn : body.length ≤ 0xFFFF := hn
  have hsizes : Bits.take 4 ⟨[], storedSizes body.length ++ (body ++ tail)⟩ =
      .ok (storedSizes body.length, ⟨[], body ++ tail⟩) :=
    take_append (storedSizes body.length) (body ++ tail)
  have hcount : numberOf ((storedSizes body.length).take 2) = body.length :=
    numberOf_unlittle 2 _ (Nat.lt_succ_of_le hn)
  have hcomplement : numberOf ((storedSizes body.length).drop 2) = 0xFFFF - body.length :=
    numberOf_unlittle 2 _ (Nat.lt_succ_of_le (Nat.sub_le ..))
  have hsum : ¬(body.length + (0xFFFF - body.length) != 0xFFFF) = true := by simp; omega
  refine bind_eq_ok_iff.2 ⟨_, hsizes, ?_⟩
  simp only [hcount, hcomplement, if_neg hsum]
  exact bind_eq_ok_iff.2 ⟨_, take_append body tail, rfl⟩

/-- The byte in front of a block says whether it is the last one, and that it is stored. -/
theorem blocksFrom_stored (last : Bool) (fuel : Nat) (out : Array UInt8) (tail : List UInt8)
    (hn : body.length ≤ storedLimit) :
    blocksFrom (fuel + 1) out ⟨[], storedHeader last body.length ++ (body ++ tail)⟩ =
      if last then .ok (out ++ body.toArray, ⟨[], tail⟩)
      else blocksFrom fuel (out ++ body.toArray) ⟨[], tail⟩ := by
  have hmark : storedHeader last body.length ++ (body ++ tail) =
      (if last then 1 else 0) :: (storedSizes body.length ++ (body ++ tail)) := rfl
  rw [hmark, blocksFrom]
  cases last with
  | false =>
    show (storedBlock out ⟨_, _⟩ >>= _) = _
    rw [storedBlock_append _ hn]
    rfl
  | true =>
    show (storedBlock out ⟨_, _⟩ >>= _) = _
    rw [storedBlock_append _ hn]
    rfl

theorem blocksFrom_storedBlocks (xs tail : List UInt8) (fuel : Nat) (out : Array UInt8)
    (hfuel : xs.length < fuel) :
    blocksFrom fuel out ⟨[], storedBlocks xs ++ tail⟩ = .ok (out ++ xs.toArray, ⟨[], tail⟩) := by
  induction xs using storedBlocks.induct generalizing out fuel with
  | case1 xs h =>
    obtain ⟨fuel, rfl⟩ := Nat.exists_eq_succ_of_ne_zero (Nat.ne_zero_of_lt hfuel)
    rw [storedBlocks, if_pos h, List.append_assoc, blocksFrom_stored true fuel out tail h]
    rfl
  | case2 xs h ih =>
    obtain ⟨fuel, rfl⟩ := Nat.exists_eq_succ_of_ne_zero (Nat.ne_zero_of_lt hfuel)
    have hlong : storedLimit < xs.length := Nat.not_le.1 h
    have hpos : 0 < storedLimit := by decide
    have hfirst : (xs.take storedLimit).length = storedLimit := by
      rw [List.length_take]
      omega
    have hrest := ih fuel (out ++ (xs.take storedLimit).toArray) (by
      rw [List.length_drop]
      omega)
    have hblock := blocksFrom_stored false fuel out (storedBlocks (xs.drop storedLimit) ++ tail)
      (Nat.le_of_eq hfirst)
    rw [hfirst] at hblock
    rw [storedBlocks, if_neg h, List.append_assoc, List.append_assoc, hblock]
    simp only [Bool.false_eq_true, if_false, hrest, Array.append_assoc, List.append_toArray,
      List.take_append_drop]

theorem length_le_storedBlocks (xs : List UInt8) : xs.length ≤ (storedBlocks xs).length := by
  induction xs using storedBlocks.induct with
  | case1 xs h =>
    rw [storedBlocks, if_pos h, List.length_append]
    exact Nat.le_add_left ..
  | case2 xs h ih =>
    rw [List.length_drop] at ih
    rw [storedBlocks, if_neg h, List.length_append, List.length_append, List.length_take]
    omega

theorem inflate_storedBlocks (xs tail : List UInt8) :
    inflate (storedBlocks xs ++ tail) = .ok (xs, tail) := by
  have hlength := length_le_storedBlocks xs
  have hfuel : xs.length < (Bits.ofBytes (storedBlocks xs ++ tail)).count + 1 := by
    rw [Bits.count, Bits.ofBytes, List.length_append]
    omega
  have hblocks := blocksFrom_storedBlocks xs tail _ #[] hfuel
  refine bind_eq_ok_iff.2 ⟨_, hblocks, ?_⟩
  simp only [Array.empty_append, List.toList_toArray]
  rfl

theorem member_compress (xs : List UInt8) : member (compress xs) = .ok (xs, []) := by
  have hheader : dropHeader (header ++ (storedBlocks xs ++ check xs)) =
      .ok (storedBlocks xs ++ check xs) :=
    bind_eq_ok_iff.2 ⟨_, takeBytes_append (header.drop 2) _, rfl⟩
  have htrailer : takeBytes 8 (check xs) = .ok (check xs, []) := by
    have h := takeBytes_append (check xs) []
    rwa [List.append_nil] at h
  have hsame : ¬(check xs != check xs) = true := by simp
  rw [compress, List.append_assoc, member]
  refine bind_eq_ok_iff.2 ⟨_, hheader, bind_eq_ok_iff.2 ⟨_, inflate_storedBlocks xs _, ?_⟩⟩
  refine bind_eq_ok_iff.2 ⟨_, htrailer, ?_⟩
  exact (if_neg hsame).trans rfl

theorem decompress_compress (xs : List UInt8) : decompress (compress xs) = .ok xs := by
  have hmember := member_compress xs
  obtain ⟨x, rest, hcons⟩ : ∃ x rest, compress xs = x :: rest := ⟨_, _, rfl⟩
  rw [hcons] at hmember
  rw [decompress, hcons, membersFrom, if_neg (by simp)]
  refine bind_eq_ok_iff.2 ⟨_, hmember, ?_⟩
  have hend : membersFrom (rest.length + 1) [] = .ok [] := rfl
  refine bind_eq_ok_iff.2 ⟨_, hend, ?_⟩
  exact congrArg Except.ok (List.append_nil xs)

end PETriage.Gzip
