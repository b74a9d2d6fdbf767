/-!
# Texts in pieces

A character past the first plane is a pair of 16-bit units, a high one and a low one. A text is a
row of characters among which single units of such pairs may stand. It is kept in pieces: the
characters up to the first single unit, and each of these with the characters behind it. A text
without single units is its first piece.
-/
namespace PETriage

/-- A unit that stands without the other one of its pair. -/
structure Text.Half where
  unit : Nat
  isHalf : 0xD800 ≤ unit ∧ unit ≤ 0xDFFF
  deriving DecidableEq, Repr

structure Text where
  head : String
  tail : List (Text.Half × String) := []
  deriving DecidableEq, Repr, Inhabited

namespace Text

@[coe]
def ofString (s : String) : Text := ⟨s, []⟩

instance : Coe String Text := ⟨ofString⟩

@[simp] theorem head_ofString (s : String) : (ofString s).head = s := rfl

@[simp] theorem tail_ofString (s : String) : (ofString s).tail = [] := rfl

@[simp] theorem ofString_inj {s t : String} : ofString s = ofString t ↔ s = t := by
  simp [ofString]

/-- The characters of a text in which no unit stands alone. -/
def whole? : Text → Option String
  | ⟨s, []⟩ => some s
  | _ => none

@[simp] theorem whole?_ofString (s : String) : (ofString s).whole? = some s := rfl

theorem whole?_eq_some_iff {t : Text} {s : String} : t.whole? = some s ↔ t = ofString s := by
  obtain ⟨head, - | ⟨piece, tail⟩⟩ := t
  · simp [whole?, ofString]
  · simp [whole?, ofString]

/-- No unit stands alone in the text. -/
def IsWhole (t : Text) : Prop := t.tail = []

instance (t : Text) : Decidable t.IsWhole := inferInstanceAs (Decidable (t.tail = []))

theorem isWhole_ofString (s : String) : (ofString s).IsWhole := rfl

theorem IsWhole.eq_ofString {t : Text} (h : t.IsWhole) : t = ofString t.head := by
  obtain ⟨head, tail⟩ := t
  cases h
  rfl

/-- The texts between the single units. -/
def pieces (t : Text) : List String := t.head :: t.tail.map (·.2)

/-! ## Texts put together -/

/-- The text of some pieces, with another behind it. -/
def concat (head : String) : List (Half × String) → Text → Text
  | [], t => ⟨head ++ t.head, t.tail⟩
  | (h, s) :: rest, t =>
    let behind := concat s rest t
    ⟨head, (h, behind.head) :: behind.tail⟩

instance : Append Text := ⟨fun s t => concat s.head s.tail t⟩

def intercalate (between : Text) : List Text → Text
  | [] => ""
  | [t] => t
  | t :: rest => t ++ between ++ intercalate between rest

/-! ## Single characters and units -/

/-- One place in a text. -/
inductive Point
  | char (c : Char)
  | half (h : Half)
  deriving DecidableEq, Repr

def Point.code : Point → Nat
  | char c => c.toNat
  | half h => h.unit

/-- The first piece of a row of characters and units, and what follows it. -/
def piecesOf : List Point → List Char × List (Half × String)
  | [] => ([], [])
  | .char c :: rest =>
    let (cs, tail) := piecesOf rest
    (c :: cs, tail)
  | .half h :: rest =>
    let (cs, tail) := piecesOf rest
    ([], (h, String.ofList cs) :: tail)

def ofPoints (ps : List Point) : Text :=
  let (cs, tail) := piecesOf ps
  ⟨String.ofList cs, tail⟩

def points (t : Text) : List Point :=
  t.head.toList.map .char ++ t.tail.flatMap fun (h, s) => .half h :: s.toList.map .char

theorem points_ofString (s : String) : (ofString s).points = s.toList.map .char := by
  rw [points, tail_ofString, List.flatMap_nil, List.append_nil, head_ofString]

theorem points_append (s t : Text) : (s ++ t).points = s.points ++ t.points := by
  show (concat s.head s.tail t).points = _
  obtain ⟨head, tail⟩ := s
  induction tail generalizing head with
  | nil => simp [concat, points]
  | cons first rest ih =>
    obtain ⟨h, piece⟩ := first
    have hbehind := ih piece
    simp only [points] at hbehind
    simp [concat, points, hbehind]

/-- A row of characters and units is that of its text. -/
theorem points_ofPoints (ps : List Point) : (ofPoints ps).points = ps := by
  induction ps with
  | nil => rfl
  | cons p ps ih =>
    simp only [ofPoints, points, String.toList_ofList] at ih ⊢
    cases p with
    | char c => rw [piecesOf, List.map_cons, List.cons_append, ih]
    | half h =>
      simp only [piecesOf, List.map_nil, List.nil_append, List.flatMap_cons, String.toList_ofList,
        List.cons_append, ih]

theorem piecesOf_map_char (cs : List Char) (ps : List Point) :
    piecesOf (cs.map .char ++ ps) = (cs ++ (piecesOf ps).1, (piecesOf ps).2) := by
  induction cs with
  | nil => rfl
  | cons c cs ih => rw [List.map_cons, List.cons_append, piecesOf, ih, List.cons_append]

/-- A text is that of its row, so its pieces are determined by its characters and units. -/
theorem ofPoints_points (t : Text) : ofPoints t.points = t := by
  have hpieces : ∀ tail : List (Half × String),
      piecesOf (tail.flatMap fun (h, s) => .half h :: s.toList.map .char) = ([], tail) := by
    intro tail
    induction tail with
    | nil => rfl
    | cons first rest ih =>
      rw [List.flatMap_cons, List.cons_append, piecesOf, piecesOf_map_char, ih, List.append_nil]
      simp only [String.ofList_toList]
  rw [ofPoints, points, piecesOf_map_char, hpieces, List.append_nil]
  simp only [String.ofList_toList]

def codes (t : Text) : List Nat := t.points.map Point.code

/-- How many characters and units there are. -/
def length (t : Text) : Nat := t.points.length

end Text
end PETriage
