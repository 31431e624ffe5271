import Mathlib.Data.List.Infix
import PushFeed.Schema.Catalog
import PushFeed.Proofs.Wire.RoundTrip
import PushFeed.Proofs.Wire.Structured
/-!
# Where the built-in types are found

Every built-in type is found under its file below any schema root
(`loadBuiltin_schemaPath`), for a source ends in the path of at most one built-in file.
All built-in layouts can be read back, from frames and from structured values.
-/

namespace PushFeed

namespace Text

theorem hasSuffix_iff {tail s : String} : hasSuffix tail s = true ↔ tail.toList <:+ s.toList := by
  rw [hasSuffix, List.isSuffixOf_iff_suffix]

theorem dropSuffix?_eq_some {tail s rest : String} :
    dropSuffix? tail s = some rest ↔ rest ++ tail = s := by
  rw [dropSuffix?, Option.map_eq_some_iff, ← String.toList_inj, String.toList_append]
  simp only [List.isSuffixOf?_eq_some_iff_append_eq]
  constructor
  · rintro ⟨cs, hcs, rfl⟩
    rw [String.toList_ofList, hcs]
  · intro h
    exact ⟨rest.toList, h, String.ofList_toList⟩

end Text

namespace Bundle

variable {b : Bundle} {source : String}

theorem matches?_iff :
    b.matches? source = true ↔ source = b.path ∨ ∃ root, source = root ++ "/" ++ b.path := by
  simp only [matches?, Bool.or_eq_true, beq_iff_eq, Option.any_eq_true, Text.dropSuffix?_eq_some]
  refine or_congr_right ⟨?_, ?_⟩
  · rintro ⟨rest, hrest, hslash⟩
    obtain ⟨cs, hcs⟩ := Text.hasSuffix_iff.1 hslash
    refine ⟨String.ofList cs, ?_⟩
    rw [← hrest, ← String.toList_inj]
    simp [← hcs]
  · rintro ⟨root, rfl⟩
    refine ⟨root ++ "/", rfl, Text.hasSuffix_iff.2 ?_⟩
    rw [String.toList_append]
    exact List.suffix_append _ _

/-- A file is named by its path below any root. -/
theorem matches?_schemaPath (b : Bundle) (root : String) :
    b.matches? (Topic.schemaPath root b.path) = true := by
  rw [matches?_iff]
  unfold Topic.schemaPath
  by_cases hroot : Topic.bareRoot root = ""
  · exact .inl (if_pos hroot)
  · exact .inr ⟨_, if_neg hroot⟩

/-- A source that names a file ends in its path. -/
theorem suffix_of_matches? (h : b.matches? source = true) : b.path.toList <:+ source.toList := by
  rcases matches?_iff.1 h with rfl | ⟨root, rfl⟩
  · exact List.suffix_refl _
  · rw [String.toList_append]
    exact List.suffix_append _ _

/-- A source names at most one built-in file. -/
theorem eq_of_matches? {b' : Bundle} (hb : b ∈ builtin) (hb' : b' ∈ builtin)
    (h : b.matches? source = true) (h' : b'.matches? source = true) : b = b' := by
  have hends : ∀ b ∈ builtin, ∀ b' ∈ builtin, b.path.toList <:+ b'.path.toList → b = b' := by
    decide +kernel
  -- of two ends of one source, one is an end of the other
  rcases List.suffix_or_suffix_of_suffix (suffix_of_matches? h) (suffix_of_matches? h') with
    hsuffix | hsuffix
  · exact hends b hb b' hb' hsuffix
  · exact (hends b' hb' b hb hsuffix).symm

theorem find?_builtin (hb : b ∈ builtin) (h : b.matches? source = true) :
    builtin.find? (·.matches? source) = some b := by
  cases hfind : builtin.find? (·.matches? source) with
  | none => exact absurd h (List.find?_eq_none.1 hfind b hb)
  | some b' =>
    have hmatches : b'.matches? source = true := by
      have hsome := List.find?_some hfind
      exact hsome
    rw [eq_of_matches? hb (List.mem_of_find?_eq_some hfind) h hmatches]

end Bundle

/-- **Every built-in type is found under its file, below any root.** -/
theorem loadBuiltin_schemaPath {b : Bundle} (hb : b ∈ Bundle.builtin) {t : MessageType}
    (ht : t ∈ b.types) (root : String) :
    loadBuiltin (Topic.schemaPath root b.path) t.typeName = .ok t := by
  have hproto : ∀ b ∈ Bundle.builtin, ".proto".toList <:+ b.path.toList := by decide +kernel
  have hlookup : ∀ b ∈ Bundle.builtin, ∀ t ∈ b.types, b.lookup? t.typeName = some t := by
    decide +kernel
  have hmatches := b.matches?_schemaPath root
  have hend : Text.hasSuffix ".proto" (Topic.schemaPath root b.path) = true :=
    Text.hasSuffix_iff.2 ((hproto b hb).trans (Bundle.suffix_of_matches? hmatches))
  rw [loadBuiltin, loadFrom, hend, Bundle.find?_builtin hb hmatches]
  simp [hlookup b hb t ht]

/-- What is found is a built-in type. -/
theorem mem_builtin_of_loadBuiltin {source typeName : String} {t : MessageType}
    (h : loadBuiltin source typeName = .ok t) : ∃ b ∈ Bundle.builtin, t ∈ b.types := by
  rw [loadBuiltin, loadFrom] at h
  split at h
  · cases h
  · split at h
    · cases h
    · rename_i b hfind
      split at h
      · rename_i found hlookup
        cases h
        exact ⟨b, List.mem_of_find?_eq_some hfind, List.mem_of_find?_eq_some hlookup⟩
      · cases h

/-- All built-in types can be read back. -/
theorem isSound_of_mem_builtin {b : Bundle} (hb : b ∈ Bundle.builtin) {t : MessageType}
    (ht : t ∈ b.types) : t.layout.isSound Wire.depthLimit = true ∧ t.layout.hasOwnKeys = true := by
  have h : ∀ b ∈ Bundle.builtin, ∀ t ∈ b.types,
      t.layout.isSound Wire.depthLimit = true ∧ t.layout.hasOwnKeys = true := by
    decide +kernel
  exact h b hb t ht

end PushFeed
