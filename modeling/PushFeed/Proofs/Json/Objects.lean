import PushFeed.Json.Reader
import PushFeed.Proofs.Json.Strings
/-!
# Objects read back

An object that was written is its entries with a comma before each but the first
(`objectText_cons_append`). A record reads them one by one: `Record.Reads` says what reading the
values in turn makes of the fields, whatever stands behind each of them, and
`Record.reader_objectText` that the whole object is then read as the record.
-/

namespace PushFeed.Json

variable {key : String} {value cs rest : List Char}

/-! ## Entries -/

/-- An entry of an object. -/
def entryText (e : String × List Char) : List Char := stringText e.1 ++ ':' :: e.2

/-- What stands before an entry: a comma, but not before the first one. -/
def lead (first : Bool) : List Char := if first then [] else [',']

theorem commaSeparated_cons (piece : List Char) (more : List (List Char)) :
    commaSeparated (piece :: more) = piece ++ more.flatMap (',' :: ·) := by
  induction more generalizing piece with
  | nil => simp [commaSeparated]
  | cons next more ih =>
    rw [commaSeparated, ih, List.flatMap_cons, List.cons_append]
    exact List.cons_ne_nil next more

theorem objectText_cons_append (e : String × List Char) (more : List (String × List Char))
    (rest : List Char) :
    objectText (e :: more) ++ rest =
      '\x7b' :: (lead true ++ entryText e ++
        (more.flatMap (fun e => lead false ++ entryText e) ++ '\x7d' :: rest)) := by
  simp [objectText, commaSeparated_cons, entryText, lead, List.flatMap_map]

/-- The key of an entry is what is read next. -/
theorem nextKey_entryText (first : Bool) :
    nextKey first (lead first ++ entryText (key, value) ++ rest) =
      .ok (some (key.toList.flatMap escapedChar ++ '"' :: ':' :: (value ++ rest))) := by
  rw [entryText, List.append_assoc, List.append_assoc, stringText_append]
  cases first <;> rfl

/-- After the last entry there is no key. -/
theorem nextKey_end (first : Bool) (rest : List Char) :
    nextKey first ('\x7d' :: rest) = .ok none := by
  cases first <;> rfl

theorem readColon_cons (cs : List Char) : readColon (':' :: cs) = .ok cs := rfl

theorem endObject_cons (cs : List Char) : endObject ('\x7d' :: cs) = .ok cs := rfl

/-- A string value that was written is read back. -/
theorem readText_stringText (s : String) (depth : Nat) (rest : List Char) :
    readText depth (stringText s ++ rest) = .ok (s, rest) := by
  rw [stringText_append]
  show token (readString _) = _
  rw [readString_escaped]
  rfl

theorem readOption_stringText (s : String) (depth : Nat) (rest : List Char) :
    readOption readText depth (stringText s ++ rest) = .ok (some s, rest) := by
  have htext := readText_stringText s depth rest
  rw [stringText_append] at htext ⊢
  show ((readText depth _).bind fun p => .ok (some p.1, p.2)) = _
  rw [htext]
  rfl

/-- An object is written without characters below the space, if its values are. -/
theorem isPlain_objectText {entries : List (String × List Char)}
    (h : ∀ e ∈ entries, IsPlain e.2) : IsPlain (objectText entries) := by
  have hentry : ∀ e ∈ entries, IsPlain (entryText e) := fun e he =>
    isPlain_append.2 ⟨isPlain_stringText _, isPlain_cons.2 ⟨by decide, h e he⟩⟩
  rw [← List.append_nil (objectText entries)]
  cases entries with
  | nil => exact isPlain_cons.2 ⟨by decide, isPlain_cons.2 ⟨by decide, nofun⟩⟩
  | cons e more =>
    have hmore : IsPlain (more.flatMap fun e => lead false ++ entryText e) := by
      intro c hc
      obtain ⟨e', he', hc⟩ := List.mem_flatMap.1 hc
      have hcomma : IsPlain (lead false) := isPlain_cons.2 ⟨by decide, nofun⟩
      exact isPlain_append.2 ⟨hcomma, hentry e' (List.mem_cons_of_mem _ he')⟩ c hc
    rw [objectText_cons_append]
    refine isPlain_cons.2 ⟨by decide, isPlain_append.2 ⟨?_, ?_⟩⟩
    · exact isPlain_append.2 ⟨nofun, hentry e List.mem_cons_self⟩
    · exact isPlain_append.2 ⟨hmore, isPlain_cons.2 ⟨by decide, nofun⟩⟩

/-! ## Records -/

namespace Record

variable {σ α : Type} {r : Record σ α} {depth fuel : Nat} {s s' s'' : σ} {a : α}
  {entries : List (String × List Char)}

/-- The entries are fields of the record that have not been read, and lead from some fields to
others when their values are read in turn, whatever stands behind each value. -/
inductive Reads (r : Record σ α) (depth : Nat) : σ → List (String × List Char) → σ → Prop
  /-- No entry. -/
  | nil (s : σ) : Reads r depth s [] s
  /-- An entry and more of them. -/
  | cons {s s' s'' : σ} {key : String} {value : List Char} {more : List (String × List Char)}
      (hfield : r.fields.contains key = true) (hnew : r.has key s = false)
      (hvalue : ∀ rest, r.read key s depth (value ++ rest) = .ok (s', rest))
      (hmore : Reads r depth s' more s'') : Reads r depth s ((key, value) :: more) s''

/-- One entry is read. -/
theorem readEntries_entryText (hfield : r.fields.contains key = true)
    (hnew : r.has key s = false)
    (hvalue : ∀ rest, r.read key s depth (value ++ rest) = .ok (s', rest)) (first : Bool) :
    r.readEntries depth (fuel + 1) first s (lead first ++ entryText (key, value) ++ rest) =
      r.readEntries depth fuel false s' rest := by
  simp only [readEntries, nextKey_entryText, readString_escaped, hfield, hnew, readColon_cons,
    hvalue, token, bind, Except.bind, if_true, Bool.false_eq_true, if_false]

/-- After the last entry nothing more is read. -/
theorem readEntries_end (first : Bool) (rest : List Char) :
    r.readEntries depth (fuel + 1) first s ('\x7d' :: rest) = .ok (s, '\x7d' :: rest) := by
  simp only [readEntries, nextKey_end, token, bind, Except.bind]

theorem Reads.readEntries_eq (h : r.Reads depth s entries s') (hfuel : entries.length < fuel)
    (rest : List Char) :
    r.readEntries depth fuel false s
        (entries.flatMap (fun e => lead false ++ entryText e) ++ '\x7d' :: rest) =
      .ok (s', '\x7d' :: rest) := by
  induction h generalizing fuel with
  | nil s =>
    cases fuel with
    | zero => cases hfuel
    | succ fuel => exact readEntries_end false rest
  | cons hfield hnew hvalue _ ih =>
    cases fuel with
    | zero => cases hfuel
    | succ fuel =>
      rw [List.flatMap_cons, List.append_assoc, readEntries_entryText hfield hnew hvalue,
        ih (Nat.lt_of_succ_lt_succ hfuel)]

theorem length_le_entries (entries : List (String × List Char)) :
    entries.length ≤ (entries.flatMap fun e => lead false ++ entryText e).length := by
  induction entries with
  | nil => exact Nat.le_refl 0
  | cons e entries ih =>
    rw [List.flatMap_cons, List.length_append, List.length_append, List.length_cons]
    have hcomma : (lead false).length = 1 := rfl
    omega

/-- **An object that was written is read back as the record** that its entries make, whatever
follows it. -/
theorem reader_objectText (h : r.Reads depth r.start entries s) (hfinish : r.finish s = .ok a)
    (rest : List Char) : r.reader (depth + 1) (objectText entries ++ rest) = .ok (a, rest) := by
  have hread (body : List Char)
      (hbody : r.readEntries depth (body.length + 1) true r.start body = .ok (s, '\x7d' :: rest)) :
      r.reader (depth + 1) ('\x7b' :: body) = .ok (a, rest) := by
    show ((r.readEntries depth (body.length + 1) true r.start body).bind fun p => do
      let a ← r.finish p.1
      let rest ← token (endObject p.2)
      .ok (a, rest)) = _
    simp only [hbody, hfinish, endObject_cons, token, bind, Except.bind]
  cases h with
  | nil => exact hread _ (readEntries_end true rest)
  | @cons _ _ _ key value more hfield hnew hvalue hmore =>
    rw [objectText_cons_append]
    refine hread _ ?_
    rw [readEntries_entryText hfield hnew hvalue, hmore.readEntries_eq]
    have := length_le_entries more
    simp only [List.length_append, List.length_cons]
    omega

end Record

end PushFeed.Json
