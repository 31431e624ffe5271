import PushFeed.Proofs.Connection.Evolution
/-!
# Connections in their order

The connections of a hub have the numbers from one on, in the order in which they were
made. Each is handed over when it is made (`Hub.Evolves.handedOver`), and the current one
is the newest.
-/

namespace PushFeed

namespace Hub

variable {h h' h'' : Hub} {g : Nat}

@[simp] theorem handedOver_modify (h : Hub) (g : Nat) (change : Connection → Connection) :
    (h.modify g change).handedOver = h.handedOver := by
  cases g <;> rfl

@[simp] theorem handedOver_retire (h : Hub) : h.retire.1.handedOver = h.handedOver := by
  unfold retire
  cases h.current? <;> simp [put]

/-! ## Numbers in order -/

/-- The numbers of the connections made between two moments. -/
def madeBetween (h h' : Hub) : List Nat :=
  List.range' (h.generation + 1) (h'.generation - h.generation)

theorem madeBetween_of_eq (hg : h'.generation = h.generation) : h.madeBetween h' = [] := by
  simp [madeBetween, hg]

theorem madeBetween_trans (hle : h.generation ≤ h'.generation)
    (hle' : h'.generation ≤ h''.generation) :
    h.madeBetween h' ++ h'.madeBetween h'' = h.madeBetween h'' :=
  range'_append_range' hle hle'

/-- **What is made is handed over, once and in order.** -/
theorem Step.handedOver (hstep : Step h h') : h'.handedOver = h.handedOver ++ h.madeBetween h' := by
  cases hstep with
  | act g a => rw [handedOver_modify, madeBetween_of_eq (generation_modify ..), List.append_nil]
  | get force =>
    cases force with
    | true =>
      have hmade : h.madeBetween (h.get true).1 = [h.generation + 1] := by
        simp [madeBetween, generation_get_true]
      rw [hmade, Hub.get, if_pos rfl]
      simp [connect]
    | false =>
      rcases Nat.eq_zero_or_pos h.generation with hz | hpos
      · have hmade : h.madeBetween (h.get false).1 = [h.generation + 1] := by
          simp [madeBetween, generation_get_false, hz]
        rw [hmade, get_false_of_empty hz]
        rfl
      · rw [get_false_of_pos hpos, madeBetween_of_eq rfl, List.append_nil]

theorem Evolves.handedOver (he : Evolves h h') :
    h'.handedOver = h.handedOver ++ h.madeBetween h' := by
  induction he with
  | refl => rw [madeBetween_of_eq rfl, List.append_nil]
  | tail hto hstep ih =>
    rw [hstep.handedOver, ih, List.append_assoc,
      madeBetween_trans (Evolves.generation_le hto) hstep.generation_le]

/-- The connections of a sound hub are numbered from one on. -/
theorem Sound.map_generation (hs : h.Sound) :
    h.connections.map (·.generation) = List.range' 1 h.generation := by
  refine List.ext_getElem (by simp [generation]) fun n hn _ => ?_
  have hlt : n < h.connections.length := by simpa using hn
  have hfind : h.find? (n + 1) = some h.connections[n] := List.getElem?_eq_getElem hlt
  rw [List.getElem_map, hs.numbered hfind, List.getElem_range', Nat.one_mul, Nat.add_comm]

/-- The current connection of a sound hub is the newest. -/
theorem Sound.current?_eq (hs : h.Sound) :
    h.current?.map (·.generation) = if h.generation = 0 then none else some h.generation := by
  rw [current?_eq_find?]
  split
  · rename_i hz
    rw [hz]
    rfl
  · rename_i hne
    obtain ⟨c, hc⟩ := exists_find? (h := h) (Nat.pos_of_ne_zero hne) (Nat.le_refl _)
    rw [hc, Option.map_some, hs.numbered hc]

/-- Where there is a connection, asking without force changes none. -/
theorem generation_get_false_of_pos (hpos : 0 < h.generation) :
    (h.get false).1.generation = h.generation := by
  rw [get_false_of_pos hpos]

end Hub

end PushFeed
