import Mathlib.Algebra.GroupWithZero.Nat
import PETriage.Digest.Hashes

/-!
# Digests of a file in pieces

A running digest is fed with one piece after the other. Two pieces do to it what both together
do, so what it says of a file depends on the bytes alone, wherever they were cut, as long as no
piece is empty: then an empty file has no pieces at all, and nothing is fed.
-/
namespace PETriage

/-- A digest that is fed with pieces, and cannot tell two of them from both together. -/
structure Digest.Running (σ : Type) where
  start : σ
  feed : σ → ByteArray → σ
  finish : σ → String
  feed_append : ∀ s x y, feed s (x ++ y) = feed (feed s x) y

namespace Hashes

open Digest (Running)

variable {σ : Type} {pieces pieces' : List ByteArray}

/-- Feeds each piece to all digests of a row before the next one. -/
def running (row : List (String × Running σ)) (pieces : List ByteArray) : Hashes :=
  let begun := row.map fun (name, d) => (name, d, d.start)
  let fed := pieces.foldl (fun states piece =>
    states.map fun (name, d, s) => (name, d, d.feed s piece)) begun
  fed.map fun (name, d, s) => (name, d.finish s)

/-! ## One digest -/

theorem foldl_feed (d : Running σ) (s : σ) (x : ByteArray) (pieces : List ByteArray) :
    pieces.foldl d.feed (d.feed s x) = d.feed s (pieces.foldl (· ++ ·) x) := by
  induction pieces generalizing x with
  | nil => rfl
  | cons piece pieces ih =>
    rw [List.foldl_cons, List.foldl_cons, ← d.feed_append]
    exact ih (x ++ piece)

/-- Pieces do what they do together, if there are any. -/
theorem foldl_feed_joined (d : Running σ) (s : σ) (hne : pieces ≠ []) :
    pieces.foldl d.feed s = d.feed s (joined pieces) := by
  cases pieces with
  | nil => exact absurd rfl hne
  | cons piece pieces =>
    rw [joined, List.foldl_cons, List.foldl_cons, ByteArray.empty_append]
    exact foldl_feed d s piece pieces

theorem size_joined (pieces : List ByteArray) :
    (joined pieces).size = (pieces.map ByteArray.size).sum := by
  have hfrom : ∀ x : ByteArray,
      (pieces.foldl (· ++ ·) x).size = x.size + (pieces.map ByteArray.size).sum := by
    induction pieces with
    | nil => exact fun _ => rfl
    | cons piece pieces ih =>
      intro x
      rw [List.foldl_cons, ih, ByteArray.size_append, List.map_cons, List.sum_cons, Nat.add_assoc]
  exact (hfrom .empty).trans (Nat.zero_add _)

theorem size_joined_eq_zero_iff (hpos : ∀ piece ∈ pieces, 0 < piece.size) :
    (joined pieces).size = 0 ↔ pieces = [] := by
  cases pieces with
  | nil => exact iff_of_true rfl rfl
  | cons piece pieces =>
    have hpiece := hpos piece List.mem_cons_self
    rw [size_joined, List.map_cons, List.sum_cons]
    exact iff_of_false (by omega) nofun

/-- Where the bytes were cut does not show. -/
theorem foldl_feed_congr (d : Running σ) (s : σ) (hpos : ∀ piece ∈ pieces, 0 < piece.size)
    (hpos' : ∀ piece ∈ pieces', 0 < piece.size) (hj : joined pieces = joined pieces') :
    pieces.foldl d.feed s = pieces'.foldl d.feed s := by
  have hnone : pieces = [] ↔ pieces' = [] := by
    rw [← size_joined_eq_zero_iff hpos, ← size_joined_eq_zero_iff hpos', hj]
  by_cases h : pieces = []
  · rw [h, hnone.1 h]
  · rw [foldl_feed_joined d s h, foldl_feed_joined d s (mt hnone.2 h), hj]

/-! ## A row of digests -/

/-- The digests of a row do not see each other. -/
theorem running_eq_map (row : List (String × Running σ)) (pieces : List ByteArray) :
    running row pieces =
      row.map fun (name, d) => (name, d.finish (pieces.foldl d.feed d.start)) := by
  have hfrom : ∀ states : List (String × Running σ × σ),
      pieces.foldl (fun states piece =>
        states.map fun (name, d, s) => (name, d, d.feed s piece)) states =
      states.map fun (name, d, s) => (name, d, pieces.foldl d.feed s) := by
    induction pieces with
    | nil => exact fun states => (List.map_id states).symm
    | cons piece pieces ih =>
      intro states
      rw [List.foldl_cons, ih, List.map_map]
      rfl
  simp only [running, hfrom, List.map_map]
  rfl

theorem running_congr (row : List (String × Running σ))
    (hpos : ∀ piece ∈ pieces, 0 < piece.size) (hpos' : ∀ piece ∈ pieces', 0 < piece.size)
    (hj : joined pieces = joined pieces') : running row pieces = running row pieces' := by
  simp only [running_eq_map, foldl_feed_congr _ _ hpos hpos' hj]

/-- Keeps what it is fed with until it is asked. -/
def keeping (digest : ByteArray → String) : Running ByteArray where
  start := .empty
  feed := (· ++ ·)
  finish := digest
  feed_append _ _ _ := ByteArray.append_assoc.symm

/-- The digests that identify a file. -/
def identifying : List (String × Running ByteArray) :=
  [("md5", keeping Digest.Md5.digest), ("sha1", keeping Digest.Sha1.digest),
    ("sha256", keeping Digest.Sha256.digest)]

/-- The hashes of a file in pieces are what running digests say when they are fed with them. -/
theorem running_identifying (pieces : List ByteArray) :
    running identifying pieces = ofPieces pieces := by
  rw [running_eq_map]
  rfl

end Hashes
end PETriage
