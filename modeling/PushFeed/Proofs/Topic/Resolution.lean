import Mathlib.Data.List.DropRight
import PushFeed.Proofs.Schema.Sources
/-!
# Where the topics of a market resolve

The slashes at the end of a schema root do not count, and nothing else of it is left out
(`Topic.bareRoot_eq_iff`). So a topic of a market tells its market and its root apart from any
other, but for those slashes, and below every root it names the built-in type of its frames. A
source names at most one built-in file, so the order in which they are looked through does not
matter (`Topic.resolves`).
-/

namespace PushFeed

namespace Topic

variable {root root' file market market' : String}

/-! ## Schema roots -/

/-- So many slashes. -/
def slashes (n : Nat) : String := String.ofList (List.replicate n '/')

/-- Whether two roots differ in nothing but the slashes at their ends. -/
def SameRoot (root root' : String) : Prop :=
  ∃ bare m n, root = bare ++ slashes m ∧ root' = bare ++ slashes n

theorem toList_bareRoot (root : String) :
    (bareRoot root).toList = root.toList.rdropWhile (· == '/') := String.toList_ofList

theorem bareRoot_append_slashes (root : String) (n : Nat) :
    bareRoot (root ++ slashes n) = bareRoot root := by
  rw [← String.toList_inj, toList_bareRoot, toList_bareRoot, slashes, String.toList_append,
    String.toList_ofList]
  induction n with
  | zero => rw [List.replicate_zero, List.append_nil]
  | succ n ih =>
    rw [List.replicate_succ', ← List.append_assoc, List.rdropWhile_concat_pos _ _ _ (by decide), ih]

/-- A root is its bare root and slashes. -/
theorem exists_slashes (root : String) : ∃ n, root = bareRoot root ++ slashes n := by
  have hslash : ∀ c ∈ root.toList.rtakeWhile (· == '/'), c = '/' := fun c hc =>
    beq_iff_eq.1 (List.mem_rtakeWhile_imp (p := (· == '/')) hc)
  refine ⟨(root.toList.rtakeWhile (· == '/')).length, ?_⟩
  rw [← String.toList_inj, String.toList_append, toList_bareRoot, slashes, String.toList_ofList,
    ← List.eq_replicate_of_mem hslash, List.rdropWhile_append_rtakeWhile]

/-- **Only the slashes at its end are left out of a root.** -/
theorem bareRoot_eq_iff : bareRoot root = bareRoot root' ↔ SameRoot root root' := by
  constructor
  · intro h
    obtain ⟨m, hm⟩ := exists_slashes root
    obtain ⟨n, hn⟩ := exists_slashes root'
    exact ⟨bareRoot root, m, n, hm, by rw [h]; exact hn⟩
  · rintro ⟨bare, m, n, rfl, rfl⟩
    rw [bareRoot_append_slashes, bareRoot_append_slashes]

/-- A schema file stands at one path below a root, and elsewhere below any other. -/
theorem schemaPath_eq_iff :
    schemaPath root file = schemaPath root' file ↔ SameRoot root root' := by
  rw [← bareRoot_eq_iff]
  refine ⟨fun h => ?_, fun h => by rw [schemaPath, schemaPath, h]⟩
  have hlonger (bare : String) : file ≠ bare ++ "/" ++ file := by
    intro heq
    have hlength := congrArg String.length heq
    have hslash : "/".length = 1 := rfl
    rw [String.length_append, String.length_append] at hlength
    omega
  simp only [schemaPath] at h
  split at h
  · rename_i hbare
    split at h
    · rename_i hbare'
      rw [hbare, hbare']
    · exact absurd h (hlonger _)
  · split at h
    · exact absurd h.symm (hlonger _)
    · simpa [← String.toList_inj] using h

/-! ## Topics -/

/-- **A topic of one kind tells its market and its root apart from any other**, but for the
slashes at the end of the root. -/
theorem mk_eq_iff {head typeName : String} {retention : Retention} :
    Topic.mk (head ++ market) (schemaPath root file) typeName retention =
        Topic.mk (head ++ market') (schemaPath root' file) typeName retention ↔
      market = market' ∧ SameRoot root root' := by
  have hmarket : head ++ market = head ++ market' ↔ market = market' := by
    simp [← String.toList_inj]
  rw [Topic.mk.injEq, hmarket, schemaPath_eq_iff, and_iff_left (And.intro rfl rfl)]

end Topic

/-! ## Files -/

/-- Where at most one element passes, it is found whatever the order. -/
theorem find?_eq_of_perm {α : Type} {p : α → Bool} {l l' : List α}
    (hp : ∀ a ∈ l, ∀ b ∈ l, p a = true → p b = true → a = b) (h : l'.Perm l) :
    l'.find? p = l.find? p := by
  cases hfind : l'.find? p with
  | none =>
    refine (List.find?_eq_none.2 fun a ha => ?_).symm
    exact List.find?_eq_none.1 hfind a (h.mem_iff.2 ha)
  | some a =>
    have ha := h.mem_iff.1 (List.mem_of_find?_eq_some hfind)
    have hpa := List.find?_some hfind
    cases hfind' : l.find? p with
    | none => exact absurd hpa (List.find?_eq_none.1 hfind' a ha)
    | some b => rw [hp a ha b (List.mem_of_find?_eq_some hfind') hpa (List.find?_some hfind')]

namespace Bundle

/-- A source names at most one of the built-in files. -/
theorem length_filter_matches?_le (source : String) :
    (builtin.filter (·.matches? source)).length ≤ 1 := by
  have hnodup : (builtin.filter (·.matches? source)).Nodup :=
    List.Pairwise.filter _ (by decide +kernel)
  have heq : ∀ b ∈ builtin.filter (·.matches? source),
      ∀ b' ∈ builtin.filter (·.matches? source), b = b' := by
    intro b hb b' hb'
    rw [List.mem_filter] at hb hb'
    exact eq_of_matches? hb.1 hb'.1 hb.2 hb'.2
  generalize builtin.filter (·.matches? source) = named at hnodup heq
  match named with
  | [] => exact Nat.zero_le 1
  | [_] => exact Nat.le_refl 1
  | b :: b' :: rest =>
    have hsame : b = b' := heq b (by simp) b' (by simp)
    exact absurd (hsame ▸ List.mem_cons_self) (List.nodup_cons.1 hnodup).1

/-- The order of the built-in files does not matter. -/
theorem loadFrom_eq_of_perm {bundles : List Bundle} (h : bundles.Perm builtin)
    (source typeName : String) : loadFrom bundles source typeName = loadBuiltin source typeName := by
  have hfind : bundles.find? (·.matches? source) = builtin.find? (·.matches? source) :=
    find?_eq_of_perm (fun b hb b' hb' => eq_of_matches? hb hb') h
  rw [loadBuiltin, loadFrom, loadFrom, hfind]

end Bundle

/-- **The topics of a market resolve below every schema root.** Order books are read as the books
of a market and prices as prices. A topic tells its market and its root apart from any other, but
for the slashes at the end of the root. A source names at most one built-in file, so what is
loaded does not depend on the order of the files. -/
theorem Topic.resolves :
    (∀ market root,
      loadBuiltin (orderBook market root).source (orderBook market root).typeName =
          .ok .marketBook ∧
        loadBuiltin (marketPrice market root).source (marketPrice market root).typeName =
          .ok .pricePayload) ∧
      (∀ market market' root root',
        (orderBook market root = orderBook market' root' ↔
            market = market' ∧ SameRoot root root') ∧
          (marketPrice market root = marketPrice market' root' ↔
            market = market' ∧ SameRoot root root')) ∧
      (∀ source, (Bundle.builtin.filter (·.matches? source)).length ≤ 1) ∧
      ∀ bundles, bundles.Perm Bundle.builtin → ∀ source typeName,
        loadFrom bundles source typeName = loadBuiltin source typeName := by
  refine ⟨fun market root => ⟨?_, ?_⟩, fun _ _ _ _ => ⟨mk_eq_iff, mk_eq_iff⟩,
    Bundle.length_filter_matches?_le, fun _ => Bundle.loadFrom_eq_of_perm⟩
  · exact loadBuiltin_schemaPath (b := ⟨orderBookSchema, _⟩) List.mem_cons_self
      List.mem_cons_self root
  · exact loadBuiltin_schemaPath (b := ⟨marketPriceSchema, _⟩)
      (List.mem_cons_of_mem _ List.mem_cons_self) List.mem_cons_self root

end PushFeed
