import PETriage.Direct.Parse
import PETriage.Proofs.Image.Front

/-!
# The front of a file against the whole of it

The parser may be given a front that is cut anywhere and told to take few sections. What it
measures then bears the header that the whole file shows in the same place.
-/
namespace PETriage.Direct

open Image (Headers SectionHeader SectionRow HeaderError)

variable {config : Config} {b x : ByteArray} {limit limit' : Int} {request full : Request}
  {header : SectionHeader} {i : Nat}

def Request.measuresAll (request : Request) : Bool := request.forceFull || !request.largeFile

structure Result.FrontOf (front whole : Result) : Prop where
  headers : front.headers.Front whole.headers
  sections : ∀ (i : Nat) header m, front.sections[i]? = some (SectionResult.measured header m) →
    ∃ m', whole.sections[i]? = some (SectionResult.measured header m')
  counted : front.sections.length + front.skipped = front.headers.file.sectionCount
  wholeCounted : whole.sections.length + whole.skipped = front.headers.file.sectionCount

theorem row_of_measured {whole : Bool} {index : Nat} {row : SectionRow} {m : Statistics.Measure}
    (h : sectionResult config b whole index row = .measured header m) : row = .header header := by
  cases row with
  | beyond offset => cases h
  | header other =>
    simp only [sectionResult] at h
    split at h
    · cases h
      rfl
    · cases h

theorem exists_measure_whole (config : Config) (b : ByteArray) :
    ∃ m, config.measure b true = .ok m := by
  unfold Config.measure Statistics.measureGiven
  split
  · exact ⟨_, rfl⟩
  · exact ⟨_, rfl⟩

theorem sectionLimit_le (config : Config) (cap : Option Int) :
    sectionLimit config cap ≤ sectionLimit config none := by
  cases cap with
  | none => exact Int.le_refl _
  | some cap => exact Int.min_le_left ..

theorem parse_eq (config : Config) (request : Request) {headers : Headers}
    (hd : Headers.decode b = .ok headers) :
    ∃ r, parse config b request = .ok r ∧ r.headers = headers ∧
      r.sections = (headers.sectionRows b (sectionLimit config request.sectionCap)).mapIdx
        (sectionResult config b request.measuresAll) ∧
      r.sections.length + r.skipped = headers.file.sectionCount := by
  refine ⟨_, bind_eq_ok_iff.2 ⟨headers, hd, rfl⟩, rfl, rfl, ?_⟩
  have hlength := Headers.length_sectionRows headers b (sectionLimit config request.sectionCap)
  simp only [List.length_mapIdx]
  omega

theorem parse_frontOf {front whole : Headers} (config : Config) (request full : Request)
    (hfront : Headers.decode b = .ok front) (hwhole : Headers.decode (b ++ x) = .ok whole)
    (h : front.Front whole) (hcap : full.sectionCap = none) (hall : full.measuresAll = true) :
    ∃ r s, parse config b request = .ok r ∧ parse config (b ++ x) full = .ok s ∧ r.FrontOf s := by
  obtain ⟨r, hr, hrh, hrs, hrc⟩ := parse_eq config request hfront
  obtain ⟨s, hs, hsh, hss, hsc⟩ := parse_eq config full hwhole
  refine ⟨r, s, hr, hs, by rw [hrh, hsh]; exact h, ?_, by rw [hrh, hrc], ?_⟩
  · intro i header m hm
    rw [hrs, List.getElem?_mapIdx, Option.map_eq_some_iff] at hm
    obtain ⟨row, hrow, hmeasured⟩ := hm
    rw [row_of_measured hmeasured] at hrow
    have hlimit := sectionLimit_le config request.sectionCap
    have hrow' := h.getElem?_sectionRows x hlimit hrow
    obtain ⟨m', hm'⟩ := exists_measure_whole config (sectionSpan (b ++ x) header)
    refine ⟨m', ?_⟩
    rw [hss, hcap, hall, List.getElem?_mapIdx, hrow', Option.map_some, sectionResult, hm']
  · rw [hrh, hsc, h.file]

/-- A front from which the headers can be decoded agrees with the file that it is the front of:
the file has these headers, with the optional header and the directories that the front was long
enough for; every row of the section table that the front holds is a row of the file; and
whatever the front is parsed under, the full parse of the file has each section that was
measured under the same header. -/
theorem front_agrees_with_whole {front : Headers} (hd : Headers.decode b = .ok front)
    (x : ByteArray) :
    ∃ whole, Headers.decode (b ++ x) = .ok whole ∧ front.Front whole ∧
      (∀ limit : Int,
        (whole.sectionRows (b ++ x) limit).length = (front.sectionRows b limit).length ∧
        ∀ (i : Nat) header, (front.sectionRows b limit)[i]? = some (SectionRow.header header) →
          (whole.sectionRows (b ++ x) limit)[i]? = some (SectionRow.header header)) ∧
      ∀ (config : Config) (request full : Request),
        full.sectionCap = none → full.measuresAll = true →
        ∃ r s, parse config b request = .ok r ∧ parse config (b ++ x) full = .ok s ∧
          r.FrontOf s := by
  obtain ⟨whole, hwhole, h⟩ := Image.decode_append x hd
  refine ⟨whole, hwhole, h, fun limit => ⟨?_, fun i header hrow => ?_⟩, ?_⟩
  · exact h.length_sectionRows b (b ++ x)
  · exact h.getElem?_sectionRows x (Int.le_refl limit) hrow
  · intro config request full hcap hall
    exact parse_frontOf config request full hd hwhole h hcap hall

/-- An image of two sections that ends inside the second row of its section table. -/
def cutImage : ByteArray :=
  Bytes.ofList ([0x4D, 0x5A] ++ List.replicate 58 0 ++ Bytes.unlittle 4 64 ++ Image.signature ++
    Bytes.unlittle 2 0x14C ++ Bytes.unlittle 2 2 ++ List.replicate 16 0 ++
    [0x2E, 0x74, 0x65, 0x78, 0x74, 0, 0, 0] ++ List.replicate 32 0 ++ [0x2E, 0x64])

def cutRest : ByteArray := Bytes.ofList ([0x61, 0x74, 0x61] ++ List.replicate 35 0)

theorem cutImage_agrees : ∃ front whole r s, Headers.decode cutImage = .ok front ∧
    Headers.decode (cutImage ++ cutRest) = .ok whole ∧ front.Front whole ∧
    parse {} cutImage { largeFile := true, sectionCap := some 5 } = .ok r ∧
    parse {} (cutImage ++ cutRest) {} = .ok s ∧ r.FrontOf s := by
  have hok : (Headers.decode cutImage).toOption.isSome = true := by decide +kernel
  cases hfront : Headers.decode cutImage with
  | error e =>
    rw [hfront] at hok
    cases hok
  | ok front =>
    obtain ⟨whole, hwhole, h, -, hparse⟩ := front_agrees_with_whole hfront cutRest
    obtain ⟨r, s, hr, hs, hrs⟩ :=
      hparse {} { largeFile := true, sectionCap := some 5 } {} rfl rfl
    exact ⟨front, whole, r, s, rfl, hwhole, h, hr, hs, hrs⟩

end PETriage.Direct
