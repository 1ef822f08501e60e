import Karstflow.Data.Crc32
import Karstflow.Storage.RecordIndex

namespace Karstflow.Storage

open Data List

/-! A column family whose last record was cut off: what is read after it has
been opened, written to and opened again. -/

section

variable (crc : List UInt8 → Octets 4) (takes : List UInt8 → Nat)

/-- A column family whose file did not exist, after these operations. -/
def session (operations : List Operation) : CfState := CfState.new.run crc takes operations

/-- The file is opened, and then `again` more times, with nothing written in between. -/
def reopened : Nat → List UInt8 → Except OpenError CfState
  | 0, file => openCf crc file
  | again + 1, file => do
    let state ← openCf crc file
    reopened again state.file

def survivor (operations : List Operation) (cut again : Nat) (further : List Operation) (later : Nat) :
    Except OpenError CfState := do
  let recovered ← reopened crc again ((session crc takes operations).file.take cut)
  reopened crc later (recovered.run crc takes further).file

/-- No record seems to begin in what is left of the bytes from `start` to
`cut` once the further operations have been written. -/
def Unforged (recovered : CfState) (start cut : Nat) (further : List Operation) : Prop :=
  ∀ place, start ≤ place → place < cut →
    place < recovered.fileEnd ∨ (recovered.run crc takes further).fileEnd ≤ place →
    intact crc ((recovered.run crc takes further).file.drop place) = false

end

variable {crc : List UInt8 → Octets 4} {takes : List UInt8 → Nat} {completed trailing further : List Operation}
  {last : Operation} {cut again : Nat}

theorem session_stores (whole : ∀ operation ∈ operations, operation.whole crc takes = true) :
    (session crc takes operations).Stores (fileHeader ++ encodeAll crc (written (fun _ => none) operations)) []
      (contentsOf operations) := by
  have stores := CfState.Stores.new.run whole
  rw [drop_nil] at stores
  exact stores

theorem contentsOf_written (operations : List Operation) :
    contentsOf (written (fun _ => none) operations) = contentsOf operations :=
  applyAll_written _ operations

theorem reopened_eq (opened : openCf crc file = .ok state)
    (unchanged : state.file = file) (again : Nat) : reopened crc again file = .ok state := by
  induction again with
  | zero => exact opened
  | succ again ih =>
      rw [reopened, opened]
      change reopened crc again state.file = .ok state
      rw [unchanged, ih]

theorem reopened_encodeAll (operations : List Operation) (damaged : intact crc rest = false)
    (again : Nat) : ∃ state, reopened crc again (fileHeader ++ encodeAll crc operations ++ rest) = .ok state ∧
      (∀ key, state.get key = contentsOf operations key) ∧ (rest.length < recordHeaderSize →
        state.Stores (fileHeader ++ encodeAll crc operations ++ rest) [] (contentsOf operations)) ∧
      (recordHeaderSize ≤ rest.length →
        state.Stores (fileHeader ++ encodeAll crc operations) rest (contentsOf operations)) := by
  obtain ⟨state, opened, file, located, fileEnd⟩ := openCf_encodeAll operations damaged
  refine ⟨state, reopened_eq opened file again, ?_, ?_, ?_⟩
  · intro key
    rw [CfState.get, file]
    exact (located.extend rest).reads key
  · intro tooShort
    rw [if_pos tooShort] at fileEnd
    exact ⟨by rw [file, append_nil], fileEnd, located.extend rest⟩
  · intro long
    rw [if_neg (not_lt.mpr long)] at fileEnd
    exact ⟨file, fileEnd, located⟩

theorem take_session (whole : ∀ operation ∈ completed ++ last :: trailing, operation.whole crc takes = true)
    (silent : (session crc takes (completed ++ last :: trailing)).fileEnd =
      (session crc takes (completed ++ [last])).fileEnd)
    (inside : (session crc takes completed).fileEnd ≤ cut) (cutOff : cut < (session crc takes (completed ++ [last])).fileEnd) :
    (session crc takes (completed ++ last :: trailing)).file.take cut =
        fileHeader ++ encodeAll crc (written (fun _ => none) completed) ++
          (last.encode crc).take (cut - (session crc takes completed).fileEnd) ∧
      cut - (session crc takes completed).fileEnd < (last.encode crc).length := by
  have before := (session_stores fun operation member => whole operation (mem_append_left _ member)).fileEnd
  have after := (@session_stores crc takes (completed ++ [last]) fun operation member => whole operation (by
    rw [append_cons]
    exact mem_append_left _ member)).fileEnd
  have all := session_stores whole
  have writes : last.writes (contentsOf completed) = true := by
    by_contra silentLast
    rw [written_append] at after
    change _ = (fileHeader ++ encodeAll crc (_ ++ written (contentsOf completed) [last])).length at after
    rw [written, if_neg silentLast, written, append_nil] at after
    omega
  have appended : written (fun _ => none) (completed ++ [last]) = written (fun _ => none) completed ++ [last] := by
    rw [written_append]
    change _ ++ written (contentsOf completed) [last] = _
    rw [written, if_pos writes, written]
  have everything : written (fun _ => none) (completed ++ last :: trailing) =
      written (fun _ => none) completed ++ [last] ++ written (contentsOf (completed ++ [last])) trailing := by
    rw [append_cons, written_append, appended]
    rfl
  have nothing : written (contentsOf (completed ++ [last])) trailing = [] := by
    have lengths := all.fileEnd
    rw [silent, after, everything, appended, encodeAll_append _ (written _ trailing)] at lengths
    simp only [length_append] at lengths
    exact @encodeAll_eq_nil crc _ (by omega)
  have file : (session crc takes (completed ++ last :: trailing)).file =
      fileHeader ++ encodeAll crc (written (fun _ => none) completed) ++ last.encode crc := by
    rw [all.file, everything, nothing, append_nil, append_nil, encodeAll_append, encodeAll_cons, encodeAll_nil,
      append_nil, append_assoc]
  refine ⟨?_, ?_⟩
  · rw [file, take_append, ← before, take_of_length_le (by rw [← before]; exact inside)]
  · rw [appended, encodeAll_append, ← append_assoc, length_append, ← before, encodeAll_cons, encodeAll_nil,
      append_nil] at after
    omega

/-! ## After the cut

`records` are the records before the last one, and `torn` is what is left of the last one. -/

theorem appended_over_torn (whole : ∀ operation ∈ further, operation.whole crc takes = true)
    (stores : recovered.Stores (fileHeader ++ encodeAll crc records) torn (contentsOf records))
    (unforged : Unforged crc takes recovered (fileHeader ++ encodeAll crc records).length
      ((fileHeader ++ encodeAll crc records).length + torn.length) further) (later : Nat) :
    ∃ state, reopened crc later (recovered.run crc takes further).file = .ok state ∧
      ∀ key, state.get key = applyAll (contentsOf records) further key := by
  let added := written (contentsOf records) further
  have after := stores.run whole
  have file : (recovered.run crc takes further).file =
      fileHeader ++ encodeAll crc (records ++ added) ++ torn.drop (encodeAll crc added).length := by
    rw [after.file, encodeAll_append, append_assoc fileHeader]
  have damaged : intact crc (torn.drop (encodeAll crc added).length) = false := by
    by_cases covered : torn.length ≤ (encodeAll crc added).length
    · rw [drop_eq_nil_of_le covered]
      rfl
    have reached : (recovered.run crc takes further).fileEnd =
        (fileHeader ++ encodeAll crc records).length + (encodeAll crc added).length :=
      after.fileEnd.trans length_append
    have damage := unforged (recovered.run crc takes further).fileEnd (by omega) (by omega) (.inr (le_refl _))
    rw [after.fileEnd, after.file, drop_left] at damage
    exact damage
  obtain ⟨state, opened, reads, -, -⟩ := reopened_encodeAll (records ++ added) damaged later
  refine ⟨state, file ▸ opened, ?_⟩
  intro key
  rw [reads, contentsOf_append, applyAll_written]

theorem appended_behind_torn (whole : ∀ operation ∈ further, operation.whole crc takes = true)
    (stores : recovered.Stores (fileHeader ++ encodeAll crc records ++ torn) [] (contentsOf records))
    (left : torn ≠ []) (unforged : Unforged crc takes recovered (fileHeader ++ encodeAll crc records).length
      ((fileHeader ++ encodeAll crc records).length + torn.length) further) (later : Nat) :
    ∃ state, reopened crc later (recovered.run crc takes further).file = .ok state ∧
      ∀ key, state.get key = contentsOf records key := by
  have after := stores.run whole
  have file : (recovered.run crc takes further).file = fileHeader ++ encodeAll crc records ++
      (torn ++ encodeAll crc (written (contentsOf records) further)) := by
    rw [after.file, drop_nil, append_nil, append_assoc _ torn]
  have some : 0 < torn.length := length_pos_iff.mpr left
  have damaged : intact crc (torn ++ encodeAll crc (written (contentsOf records) further)) = false := by
    have behind := stores.fileEnd.trans length_append
    have damage := unforged (fileHeader ++ encodeAll crc records).length (le_refl _) (by omega) (.inl (by omega))
    rw [file, drop_left] at damage
    exact damage
  obtain ⟨state, opened, reads, -, -⟩ := reopened_encodeAll records damaged later
  exact ⟨state, file ▸ opened, reads⟩

/-- A later reopen reads the completed operations and all operations after
the cut, unless the cut left a piece of the record that is shorter than a
record header: the scan that meets such a piece counts it to the file, and
records behind it are not found again. -/
theorem survivor_get_iff
    (whole : ∀ operation ∈ completed ++ last :: trailing ++ further, operation.whole crc takes = true)
    (silent : (session crc takes (completed ++ last :: trailing)).fileEnd =
      (session crc takes (completed ++ [last])).fileEnd)
    (inside : (session crc takes completed).fileEnd ≤ cut) (cutOff : cut < (session crc takes (completed ++ [last])).fileEnd)
    (unforged : ∀ recovered,
      reopened crc again ((session crc takes (completed ++ last :: trailing)).file.take cut) = .ok recovered →
        Unforged crc takes recovered (session crc takes completed).fileEnd cut further) :
    (∃ state, survivor crc takes (completed ++ last :: trailing) cut again further later = .ok state ∧
        ∀ key, state.get key = contentsOf (completed ++ further) key) ↔
      cut = (session crc takes completed).fileEnd ∨ (session crc takes completed).fileEnd + recordHeaderSize ≤ cut ∨
        ∀ key, contentsOf (completed ++ further) key = contentsOf completed key := by
  have wholeBefore := fun operation member => whole operation (mem_append_left further member)
  have wholeAfter := fun operation member => whole operation (mem_append_right _ member)
  obtain ⟨shown, short⟩ := take_session wholeBefore silent inside cutOff
  let records := written (fun _ => none) completed
  let torn := (last.encode crc).take (cut - (session crc takes completed).fileEnd)
  have length : torn.length = cut - (session crc takes completed).fileEnd := length_take_of_le short.le
  obtain ⟨recovered, opened, -, whenShort, whenLong⟩ :=
    reopened_encodeAll records (not_intact_take last short) again
  rw [← shown] at opened
  have begins : (session crc takes completed).fileEnd = (fileHeader ++ encodeAll crc records).length :=
    (session_stores fun operation member => wholeBefore operation (mem_append_left _ member)).fileEnd
  have ends : cut = (fileHeader ++ encodeAll crc records).length + torn.length := by omega
  have sound := unforged recovered opened
  rw [begins, ends] at sound
  have ran : survivor crc takes (completed ++ last :: trailing) cut again further later =
      reopened crc later (recovered.run crc takes further).file := by
    rw [survivor, opened]
    rfl
  have expected : contentsOf (completed ++ further) = applyAll (contentsOf records) further := by
    rw [contentsOf_append, contentsOf_written]
  have kept := contentsOf_written completed
  rw [ran]
  by_cases overwrites : torn = [] ∨ recordHeaderSize ≤ torn.length
  · have stores : recovered.Stores (fileHeader ++ encodeAll crc records) torn (contentsOf records) := by
      obtain nothing | long := overwrites
      · have stored := whenShort (by change torn.length < _; rw [nothing]; decide)
        change recovered.Stores (_ ++ torn) _ _ at stored
        rw [nothing, append_nil] at stored
        rw [nothing]
        exact stored
      · exact whenLong long
    obtain ⟨state, found, reads⟩ := appended_over_torn wholeAfter stores sound later
    constructor
    · intro _
      obtain nothing | long := overwrites
      · rw [nothing, length_nil] at length
        omega
      · omega
    · intro _
      refine ⟨state, found, ?_⟩
      intro key
      rw [reads, expected]
  · obtain ⟨left, few⟩ := not_or.mp overwrites
    obtain ⟨state, found, reads⟩ := appended_behind_torn wholeAfter (whenShort (Nat.lt_of_not_le few)) left sound later
    have some : 0 < torn.length := length_pos_iff.mpr left
    constructor
    · rintro ⟨other, again, right⟩
      rw [found] at again
      cases again
      refine .inr (.inr ?_)
      intro key
      rw [← right, reads, kept]
    · intro condition
      refine ⟨state, found, ?_⟩
      intro key
      obtain none | many | unchanged := condition
      · omega
      · omega
      · rw [reads, kept, unchanged]

def tornPut : Operation := .put ⟨[1], by decide⟩ ⟨[7], by decide⟩

def laterPut : Operation := .put ⟨[2], by decide⟩ ⟨[9], by decide⟩

/-- The first put is cut after one byte. The second put succeeds, and is gone
when the file is opened again, though no checksum matched by chance. -/
theorem laterPut_lost :
    (∀ recovered, reopened crc32Bytes 0 ((session crc32Bytes length [tornPut]).file.take 17) = .ok recovered →
      Unforged crc32Bytes length recovered 16 17 [laterPut]) ∧
    (survivor crc32Bytes length [tornPut] 17 0 [laterPut] 0).toOption.map (fun state => state.get [2]) = some none ∧
    contentsOf [laterPut] [2] = some [9] := by
  refine ⟨?_, by decide +kernel, by decide⟩
  intro recovered opened place first last _
  have only : place = 16 := by omega
  have mismatch : (reopened crc32Bytes 0 ((session crc32Bytes length [tornPut]).file.take 17)).toOption.map
      (fun state => intact crc32Bytes ((state.run crc32Bytes length [laterPut]).file.drop 16)) = some false := by
    decide +kernel
  rw [opened] at mismatch
  rw [only]
  exact Option.some.inj mismatch

/-- With a whole header left of the first put, the second one is found again. -/
theorem laterPut_found : ∃ state, survivor crc32Bytes length [tornPut] 29 0 [laterPut] 0 = .ok state ∧
      ∀ key, state.get key = contentsOf [laterPut] key := by
  have condition := @survivor_get_iff crc32Bytes length [] [] [laterPut] tornPut 29 0 0 (by decide +kernel) rfl
    (by decide +kernel) (by decide +kernel)
  apply (condition ?_).mpr (.inr (.inl (by decide +kernel)))
  intro recovered opened place first last free
  have ends : (reopened crc32Bytes 0 ((session crc32Bytes length [tornPut]).file.take 29)).toOption.map
      (fun state => (state.fileEnd, (state.run crc32Bytes length [laterPut]).fileEnd)) = some (16, 31) := by
    decide +kernel
  rw [nil_append] at opened
  rw [opened] at ends
  obtain ⟨reopenedEnd, laterEnd⟩ := Prod.mk.inj (Option.some.inj ends)
  have begins : (session crc32Bytes length []).fileEnd = 16 := rfl
  omega

end Karstflow.Storage
