import Mathlib.Logic.Basic
import PushFeed.Control.ClientMessage
import PushFeed.Proofs.Json.Objects
/-!
# Control messages read back

A request and a message are read back from the objects they are written as
(`ControlRequest.reader_json`, `ClientMessage.reader_json`). So a message whose channel a server
could route has a text, without raw characters below the space, that holds the same message
(`ClientMessage.text?_readsBack`), and any other message has none.
-/

namespace PushFeed

open Json

/-! ## Requests -/

namespace ControlRequest

variable {action : ControlAction} {key : String} {value : List Char} {depth fuel : Nat}

theorem ofName_name (action : ControlAction) : ControlAction.ofName action.name = action := by
  cases action <;> rfl

/-- The entries of a request are found under their keys. -/
theorem nextEntry_entryText (hkey : key = "type" ∨ key = "data") (first : Bool)
    (rest : List Char) :
    nextEntry (fuel + 1) first (lead first ++ entryText (key, value) ++ rest) =
      .ok (some key, ':' :: (value ++ rest)) := by
  simp only [nextEntry, nextKey_entryText, readString_escaped, if_pos hkey, token, bind,
    Except.bind]

theorem nextEntry_end (first : Bool) (rest : List Char) :
    nextEntry (fuel + 1) first ('\x7d' :: rest) = .ok (none, '\x7d' :: rest) := by
  simp only [nextEntry, nextKey_end, token, bind, Except.bind]

theorem readTail_end (rest : List Char) :
    readTail ('\x7d' :: rest) = .ok ('\x7d' :: rest) := by
  simp only [readTail, nextEntry_end, bind, Except.bind]

theorem readAction_name (action : ControlAction) (depth : Nat) (rest : List Char) :
    readAction depth (':' :: (stringText action.name ++ rest)) = .ok (action, rest) := by
  have hknown : knownVariant ControlAction.names action.name = .ok action.name := by
    cases action <;> rfl
  have hname : readName? ControlAction.names depth (stringText action.name ++ rest) =
      .ok (action.name, rest) := by
    rw [stringText_append]
    show ((token (readString _)).bind fun p => do
      let name ← knownVariant ControlAction.names p.1
      let a ← Except.ok name
      .ok (a, p.2)) = _
    simp only [readString_escaped, hknown, token, bind, Except.bind]
  simp only [readAction, readColon_cons, hname, ofName_name, token, bind, Except.bind]

/-- The data of a request is read back. -/
theorem readData_objectText (action : ControlAction) (channel : String) (depth : Nat)
    (rest : List Char) :
    readData action (depth + 1) (objectText [("channel", stringText channel)] ++ rest) =
      .ok (channel, rest) := by
  have hreads : (dataRecord action).Reads depth none [("channel", stringText channel)]
      (some channel) := by
    refine .cons rfl rfl (fun rest => ?_) (.nil _)
    simp only [dataRecord, readText_stringText, bind, Except.bind]
  have hreader := Record.reader_objectText hreads rfl rest
  rw [objectText_cons_append] at hreader ⊢
  exact hreader

/-- **A request that was written is read back**, whatever follows it. -/
theorem reader_json (r : ControlRequest) (depth : Nat) (rest : List Char) :
    reader (depth + 2) (r.json ++ rest) = .ok (r, rest) := by
  have hentries (body : List Char)
      (hbody : readEntries (depth + 1) body = .ok (r, '\x7d' :: rest)) :
      reader (depth + 2) ('\x7b' :: body) = .ok (r, rest) := by
    show ((readEntries (depth + 1) body).bind fun p => do
      let rest ← token (endObject p.2)
      .ok (p.1, rest)) = _
    simp only [hbody, endObject_cons, token, bind, Except.bind]
  rw [json, objectText_cons_append]
  refine hentries _ ?_
  rw [List.flatMap_singleton]
  simp only [readEntries, nextEntry_entryText (.inl rfl), nextEntry_entryText (.inr rfl),
    readAction_name, token, bind, Except.bind]
  simp [readColon_cons, readData_objectText, readTail_end]

end ControlRequest

/-! ## Messages -/

namespace ClientMessage

variable {m m' : ClientMessage}

/-- The fields of a message are read back. -/
theorem reads_json (m : ClientMessage) (depth : Nat) :
    ∃ entries s, m.json = objectText entries ∧ record.Reads (depth + 2) record.start entries s ∧
      record.finish s = .ok m := by
  have hrequest (s : Fields) (hnew : s.request = none) :
      record.Reads (depth + 2) s [("payload", m.request.json)]
        { s with request := some m.request } := by
    refine .cons rfl (by simp [record, hnew]) (fun rest => ?_) (.nil _)
    simp [record, ControlRequest.reader_json, bind, Except.bind]
  obtain ⟨id, request⟩ := m
  cases id with
  | none => exact ⟨_, _, rfl, hrequest _ rfl, rfl⟩
  | some id =>
    refine ⟨_, _, rfl, .cons rfl rfl (fun rest => ?_) (hrequest ⟨some (some id), none⟩ rfl), rfl⟩
    simp [record, readOption_stringText, bind, Except.bind]

/-- **A message that was written is read back**, whatever follows it. -/
theorem reader_json (m : ClientMessage) (depth : Nat) (rest : List Char) :
    record.reader (depth + 3) (m.json ++ rest) = .ok (m, rest) := by
  obtain ⟨entries, s, hjson, hreads, hfinish⟩ := m.reads_json depth
  rw [hjson]
  exact Record.reader_objectText hreads hfinish rest

theorem parse_json (m : ClientMessage) : parse (String.ofList m.json) = .ok m := by
  have hread := m.reader_json 124 []
  rw [List.append_nil] at hread
  rw [parse, Json.readWhole, String.toList_ofList]
  show (record.reader 127 m.json).bind _ = _
  rw [hread]
  rfl

theorem isPlain_json (m : ClientMessage) : IsPlain m.json := by
  have hdata : IsPlain (objectText [("channel", stringText m.request.channel)]) :=
    isPlain_objectText (by simp [isPlain_stringText])
  have hrequest : IsPlain m.request.json :=
    isPlain_objectText (by simp [isPlain_stringText, hdata])
  rw [json]
  split <;> exact isPlain_objectText (by simp [isPlain_stringText, hrequest])

/-- Whether a server could route the channel of a message: its name is not empty and has no
blank in it. -/
def IsRoutable (m : ClientMessage) : Prop :=
  m.channel ≠ "" ∧ ∀ c ∈ m.channel.toList, Text.isBlank c = false

theorem not_isRoutable_iff :
    ¬m.IsRoutable ↔ m.channel = "" ∨ ∃ c ∈ m.channel.toList, Text.isBlank c = true := by
  simp only [IsRoutable, not_and_or, not_not, not_forall, Bool.not_eq_false, exists_prop]

theorem text?_of_isRoutable (h : m.IsRoutable) : m.text? = .ok (String.ofList m.json) := by
  have hblank : ¬m.channel.toList.any Text.isBlank = true := by
    rw [List.any_eq_true]
    rintro ⟨c, hc, hcblank⟩
    rw [h.2 c hc] at hcblank
    cases hcblank
  rw [text?, validate, if_neg h.1, if_neg hblank]
  rfl

theorem exists_error_of_not_isRoutable (h : ¬m.IsRoutable) :
    ∃ reason, m.text? = .error (.validation reason) := by
  rcases not_isRoutable_iff.1 h with hempty | ⟨c, hc, hcblank⟩
  · exact ⟨"channel name is empty", by rw [text?, validate, if_pos hempty]; rfl⟩
  · have hblank : m.channel.toList.any Text.isBlank = true := List.any_eq_true.2 ⟨c, hc, hcblank⟩
    have hne : m.channel ≠ "" := by
      intro hempty
      rw [hempty] at hc
      cases hc
    exact ⟨_, by rw [text?, validate, if_neg hne, if_pos hblank]; rfl⟩

/-- **Messages survive being written.** A message is refused exactly when its channel has no
name or a blank in it. Any other has a text, without raw characters below the space, that holds
the very same message. So two of them never have the same text. -/
theorem text?_readsBack :
    (∀ m : ClientMessage,
      ((∃ reason, m.text? = .error (.validation reason)) ↔
          m.channel = "" ∨ ∃ c ∈ m.channel.toList, Text.isBlank c = true) ∧
        (m.IsRoutable → ∃ text, m.text? = .ok text ∧ (∀ c ∈ text.toList, 0x20 ≤ c.toNat) ∧
          parse text = .ok m)) ∧
      ∀ m m' : ClientMessage, m.IsRoutable → m'.IsRoutable → m.text? = m'.text? → m = m' := by
  refine ⟨fun m => ⟨?_, fun h => ?_⟩, fun m m' h h' heq => ?_⟩
  · rw [← not_isRoutable_iff]
    refine ⟨?_, exists_error_of_not_isRoutable⟩
    rintro ⟨reason, hreason⟩ h
    rw [text?_of_isRoutable h] at hreason
    cases hreason
  · refine ⟨_, text?_of_isRoutable h, ?_, m.parse_json⟩
    rw [String.toList_ofList]
    exact m.isPlain_json
  · rw [text?_of_isRoutable h, text?_of_isRoutable h', Except.ok.injEq] at heq
    have hparse := m.parse_json
    rw [heq, m'.parse_json] at hparse
    exact (Except.ok.inj hparse).symm

end ClientMessage

end PushFeed
