import PlatformInit.Proofs.Bytes.Slicing
import PlatformInit.Proofs.Walk
import PlatformInit.Volume.File

/-!
One entry of a volume: what a section or a file that is read takes from the bytes, and how the walk
over the entries goes on behind it.
-/
set_option autoImplicit false
namespace PlatformInit

variable {bytes : Bytes} {offset stop : Nat}

namespace Section

theorem four_le_of_extent? {header size : Nat} (h : extent? bytes offset = some (header, size)) :
    4 ≤ header := by
  unfold extent? at h
  split at h
  · cases h
  · obtain ⟨n, -, heq⟩ := Option.map_eq_some_iff.mp h
    cases heq
    decide
  · cases h
    exact Nat.le_refl 4

theorem readAt?_eq_some {s : Section} (h : readAt? bytes offset = some (s, stop)) :
    ∃ header, 4 ≤ header ∧ bytes.slice? (offset + header) s.body.length = some s.body ∧
      stop = offset + header + s.body.length := by
  simp only [readAt?, Option.bind_eq_bind, Option.bind_eq_some_iff] at h
  obtain ⟨kind, -, ⟨header, size⟩, hextent, h⟩ := h
  have hheader := four_le_of_extent? hextent
  dsimp only at h
  split at h
  · cases h
  · rename_i hsize
    obtain ⟨body, hbody, heq⟩ := Option.bind_eq_some_iff.mp h
    cases heq
    have hlength := Bytes.length_of_slice? hbody
    refine ⟨header, hheader, ?_, ?_⟩
    · rwa [hlength]
    · dsimp only
      omega

theorem walk_of_none (h : readAt? bytes offset = none) : walk bytes offset = [] := by
  rw [walk]
  split
  · rfl
  · rename_i hfound
    rw [h] at hfound
    cases hfound

theorem walk_of_some {s : Section} (h : readAt? bytes offset = some (s, stop)) :
    walk bytes offset = s :: walk bytes (roundUp 4 stop) := by
  rw [walk]
  split
  all_goals
    rename_i hfound
    rw [h] at hfound
    cases hfound
  rfl

end Section

namespace FirmwareFile

theorem headerSize_le_of_extent? {attributes : UInt8} {header size : Nat}
    (h : extent? bytes offset attributes = some (header, size)) : headerSize ≤ header := by
  unfold extent? at h
  split at h
  all_goals
    obtain ⟨n, -, heq⟩ := Option.map_eq_some_iff.mp h
    cases heq
    decide

theorem headerAt?_inv {e : Entry} (h : headerAt? bytes offset = some e) :
    offset + headerSize ≤ bytes.length ∧
      extent? bytes offset e.attributes = some (e.headerLength, e.size) ∧ e.headerLength ≤ e.size := by
  simp only [headerAt?, Option.bind_eq_bind, Option.bind_eq_some_iff] at h
  obtain ⟨header, hheader, h⟩ := h
  split at h
  · cases h
  · obtain ⟨attributes, -, h⟩ := Option.bind_eq_some_iff.mp h
    obtain ⟨⟨length, size⟩, hextent, h⟩ := Option.bind_eq_some_iff.mp h
    dsimp only at h
    split at h
    · cases h
    · rename_i hsize
      simp only [Option.bind_eq_some_iff, Option.pure_def, Option.some.injEq] at h
      obtain ⟨-, -, -, -, rfl⟩ := h
      exact ⟨Bytes.le_length_of_slice? hheader, hextent, Nat.le_of_not_lt hsize⟩

theorem headerSize_le_of_headerAt? {e : Entry} (h : headerAt? bytes offset = some e) :
    headerSize ≤ e.headerLength ∧ e.headerLength ≤ e.size := by
  obtain ⟨-, hextent, hsize⟩ := headerAt?_inv h
  exact ⟨headerSize_le_of_extent? hextent, hsize⟩

theorem readAt_eq_some {f : FirmwareFile} (h : readAt bytes offset = .ok (some (f, stop))) :
    ∃ header, headerSize ≤ header ∧ bytes.slice? (offset + header) f.body.length = some f.body ∧
      stop = offset + header + f.body.length := by
  unfold readAt at h
  split at h
  · cases h
  · rename_i e he
    obtain ⟨hheader, hsize⟩ := headerSize_le_of_headerAt? he
    split at h
    · cases h
    · rename_i n hn
      obtain ⟨body, hbody, heq⟩ := Option.map_eq_some_iff.mp (Except.ok.inj h)
      cases heq
      have hlength := Bytes.length_of_slice? hbody
      obtain ⟨hstop, -⟩ := fit64_eq_ok_iff.mp hn
      refine ⟨e.headerLength, hheader, ?_, ?_⟩
      · rwa [hlength]
      · dsimp only
        omega

theorem walk_of_error {why : Halt} (h : readAt bytes offset = .error why) :
    walk bytes offset = .halted why := by
  rw [walk]
  split
  all_goals
    rename_i hfound
    rw [h] at hfound
    cases hfound
  rfl

theorem walk_of_none (h : readAt bytes offset = .ok none) : walk bytes offset = .done := by
  rw [walk]
  split
  · rename_i hfound
    rw [h] at hfound
    cases hfound
  · rfl
  · rename_i hfound
    rw [h] at hfound
    cases hfound

theorem walk_of_some {f : FirmwareFile} (h : readAt bytes offset = .ok (some (f, stop))) :
    walk bytes offset = if f.kind = pad then walk bytes (roundUp 8 stop)
      else .next f (walk bytes (roundUp 8 stop)) := by
  rw [walk]
  split
  all_goals
    rename_i hfound
    rw [h] at hfound
    cases hfound
  rfl

end FirmwareFile

namespace Volume

/-- A search looks at the files as far as the walk gets, and then it matters how the walk ends. -/
theorem findSection_eq (v : Volume) (fileKind sectionKind : UInt8) : v.findSection fileKind sectionKind =
    match v.files.items.find? (·.kind == fileKind) with
    | some file =>
      match file.sections.find? (·.kind == sectionKind) with
      | none => .fail .notFound
      | some s => .ok s.body
    | none =>
      match v.files.toList with
      | .error h => .error (.halt h)
      | .ok _ => .fail .notFound := by
  rw [findSection, Walk.find?_eq]
  cases v.files.items.find? (·.kind == fileKind) with
  | none => cases v.files.toList <;> rfl
  | some file =>
    dsimp only [bind, Except.bind, liftM, monadLift, MonadLift.monadLift, Fallible.ofHalting]
    cases file.sections.find? (·.kind == sectionKind) <;> rfl

theorem findSection_of_toList {v : Volume} {files : List FirmwareFile} (h : v.files.toList = .ok files)
    (fileKind sectionKind : UInt8) : v.findSection fileKind sectionKind =
      match (files.find? (·.kind == fileKind)).bind (·.sections.find? (·.kind == sectionKind)) with
      | none => .fail .notFound
      | some s => .ok s.body := by
  rw [findSection_eq, Walk.items_of_toList h, h]
  cases files.find? (·.kind == fileKind) <;> rfl

end Volume
end PlatformInit
