import Mathlib.Data.List.DropRight
import Mathlib.Data.List.Infix
import PushFeed.Topic
/-!
# Names of channels

A name begins as its kind of channel does, and no name begins as two kinds do
(`ChannelKey.head_eq_of_append_eq`). What follows is the market id, with any blanks around it,
or, behind a poster's name, anything (`ChannelKey.parse?_eq_some_iff`). So the text of a channel
that was read is its normal form, and the channels that their own text gives back are the
posters and those of a market id without blanks around it (`ChannelKey.parse?_text_normal`).
-/

namespace PushFeed

/-! ## Trimming -/

namespace Text

theorem dropPrefix?_eq_some {head s rest : String} :
    dropPrefix? head s = some rest ↔ head ++ rest = s := by
  rw [dropPrefix?, Option.map_eq_some_iff, ← String.toList_inj, String.toList_append]
  simp only [List.isPrefixOf?_eq_some_iff_append_eq]
  constructor
  · rintro ⟨cs, hcs, rfl⟩
    rw [String.toList_ofList, hcs]
  · intro h
    exact ⟨rest.toList, h, String.ofList_toList⟩

theorem dropPrefix?_eq_none {head s : String} (h : ∀ rest, head ++ rest ≠ s) :
    dropPrefix? head s = none :=
  Option.eq_none_iff_forall_ne_some.2 fun rest hrest => h rest (dropPrefix?_eq_some.1 hrest)

theorem hasPrefix_iff {head s : String} : hasPrefix head s = true ↔ ∃ rest, head ++ rest = s := by
  rw [hasPrefix, List.isPrefixOf_iff_prefix]
  constructor
  · rintro ⟨cs, hcs⟩
    exact ⟨String.ofList cs, by rw [← String.toList_inj, String.toList_append,
      String.toList_ofList, hcs]⟩
  · rintro ⟨rest, rfl⟩
    exact ⟨rest.toList, String.toList_append.symm⟩

/-- Whether a text neither starts nor ends with a blank character. -/
def IsTrimmed (s : String) : Prop :=
  (∀ c, s.toList.head? = some c → isBlank c = false) ∧
    ∀ c, s.toList.getLast? = some c → isBlank c = false

theorem trimStart_eq_self_iff {cs : List Char} :
    trimStart cs = cs ↔ ∀ c, cs.head? = some c → isBlank c = false := by
  cases cs with
  | nil => simp [trimStart]
  | cons c cs =>
    rw [trimStart, List.dropWhile_eq_self_iff]
    simp

theorem trimEnd_eq_self_iff {cs : List Char} :
    trimEnd cs = cs ↔ ∀ c, cs.getLast? = some c → isBlank c = false := by
  have hreverse : trimEnd cs = cs ↔ trimStart cs.reverse = cs.reverse := by
    rw [trimEnd, trimStart, List.reverse_eq_iff]
  rw [hreverse, trimStart_eq_self_iff, List.head?_reverse]

/-- **Trimming a text changes nothing** if and only if it neither starts nor ends with a
blank. -/
theorem trim_eq_self_iff {s : String} : trim s = s ↔ IsTrimmed s := by
  rw [IsTrimmed, ← trimStart_eq_self_iff, ← trimEnd_eq_self_iff, trim, ← String.toList_inj,
    String.toList_ofList]
  constructor
  · intro h
    have hstart : (trimStart s.toList).length ≤ s.toList.length :=
      (List.dropWhile_sublist _).length_le
    have hend : (trimEnd (trimStart s.toList)).length ≤ (trimStart s.toList).length :=
      (List.rdropWhile_prefix isBlank _).length_le
    rw [h] at hend
    have hwhole : trimStart s.toList = s.toList :=
      (List.dropWhile_suffix isBlank).eq_of_length (Nat.le_antisymm hstart hend)
    exact ⟨hwhole, by rwa [hwhole] at h⟩
  · rintro ⟨hstart, hend⟩
    rw [hstart, hend]

/-- A text that has been trimmed is so. -/
theorem isTrimmed_trim (s : String) : IsTrimmed (trim s) := by
  obtain ⟨cut, hcut⟩ : trimEnd (trimStart s.toList) <+: trimStart s.toList :=
    List.rdropWhile_prefix isBlank _
  have hstart : trimStart (trimStart s.toList) = trimStart s.toList := List.dropWhile_idempotent _ _
  have hend : trimEnd (trimEnd (trimStart s.toList)) = trimEnd (trimStart s.toList) :=
    List.rdropWhile_idempotent _ _
  rw [IsTrimmed, trim, String.toList_ofList]
  refine ⟨fun c hc => ?_, trimEnd_eq_self_iff.1 hend⟩
  -- what is left begins as it did before its end was trimmed
  exact trimStart_eq_self_iff.1 hstart c (by rw [← hcut, List.head?_append, hc, Option.some_or])

end Text

/-! ## Names -/

namespace ChannelKey

variable {c d : ChannelKey} {s rest rest' : String}

/-- What the names of a kind of channel begin with. -/
def head : ChannelKey → String
  | .priceUpdate _ => priceHead
  | .orderBookUpdate _ => orderBookHead
  | .pricePoster => pricePosterName
  | .orderBookPoster => orderBookPosterName

/-- Whether a text that begins as the names of a channel do goes on as one of them: with the
market id and any blanks around it, or, behind a poster's name, anyhow. -/
def IsNamed (c : ChannelKey) (rest : String) : Prop :=
  ∀ market, c.market? = some market → Text.trim rest = market ∧ market ≠ ""

/-- **A text begins as the names of one kind of channel do.** -/
theorem head_eq_of_append_eq (h : c.head ++ rest = d.head ++ rest') : c.head = d.head := by
  let heads := [priceHead, orderBookHead, pricePosterName, orderBookPosterName]
  have hmem (c : ChannelKey) : c.head ∈ heads := by cases c <;> simp [head, heads]
  have hapart : ∀ a ∈ heads, ∀ b ∈ heads, a.toList <+: b.toList → a = b := by decide +kernel
  have hfirst : c.head.toList <+: (c.head ++ rest).toList :=
    ⟨rest.toList, String.toList_append.symm⟩
  have hsecond : d.head.toList <+: (c.head ++ rest).toList :=
    ⟨rest'.toList, by rw [h, String.toList_append]⟩
  -- of two beginnings of one text, one begins the other
  rcases List.prefix_or_prefix_of_prefix hfirst hsecond with hprefix | hprefix
  · exact hapart _ (hmem c) _ (hmem d) hprefix
  · exact (hapart _ (hmem d) _ (hmem c) hprefix).symm

theorem dropPrefix?_head (h : c.head ≠ d.head) (rest : String) :
    Text.dropPrefix? d.head (c.head ++ rest) = none :=
  Text.dropPrefix?_eq_none fun _ heq => h (head_eq_of_append_eq heq.symm)

theorem marketOf?_eq_some_iff {market : String} :
    marketOf? rest = some market ↔ Text.trim rest = market ∧ market ≠ "" := by
  rw [marketOf?]
  split
  · rename_i hempty
    rw [hempty]
    constructor
    · nofun
    · rintro ⟨rfl, hne⟩
      exact absurd rfl hne
  · rename_i hne
    rw [Option.some_inj]
    constructor
    · rintro rfl
      exact ⟨rfl, hne⟩
    · exact And.left

theorem parse?_priceHead (rest : String) :
    parse? (priceHead ++ rest) = (marketOf? rest).map .priceUpdate := by
  rw [parse?, Text.dropPrefix?_eq_some.2 rfl]

theorem parse?_orderBookHead (rest : String) :
    parse? (orderBookHead ++ rest) = (marketOf? rest).map .orderBookUpdate := by
  have hprice : Text.dropPrefix? priceHead (orderBookHead ++ rest) = none :=
    dropPrefix?_head (c := .orderBookUpdate "") (d := .priceUpdate "") (by decide) rest
  rw [parse?, hprice, Text.dropPrefix?_eq_some.2 rfl]

theorem parse?_pricePosterName (rest : String) :
    parse? (pricePosterName ++ rest) = some .pricePoster := by
  have hprice : Text.dropPrefix? priceHead (pricePosterName ++ rest) = none :=
    dropPrefix?_head (c := .pricePoster) (d := .priceUpdate "") (by decide) rest
  have hbook : Text.dropPrefix? orderBookHead (pricePosterName ++ rest) = none :=
    dropPrefix?_head (c := .pricePoster) (d := .orderBookUpdate "") (by decide) rest
  simp only [parse?, hprice, hbook, Text.hasPrefix_iff.2 ⟨rest, rfl⟩, if_true]

theorem parse?_orderBookPosterName (rest : String) :
    parse? (orderBookPosterName ++ rest) = some .orderBookPoster := by
  have hprice : Text.dropPrefix? priceHead (orderBookPosterName ++ rest) = none :=
    dropPrefix?_head (c := .orderBookPoster) (d := .priceUpdate "") (by decide) rest
  have hbook : Text.dropPrefix? orderBookHead (orderBookPosterName ++ rest) = none :=
    dropPrefix?_head (c := .orderBookPoster) (d := .orderBookUpdate "") (by decide) rest
  have hposter : ¬Text.hasPrefix pricePosterName (orderBookPosterName ++ rest) = true := by
    rw [Text.hasPrefix_iff]
    rintro ⟨other, h⟩
    exact absurd (head_eq_of_append_eq (c := .pricePoster) (d := .orderBookPoster) h) (by decide)
  simp only [parse?, hprice, hbook, hposter, Text.hasPrefix_iff.2 ⟨rest, rfl⟩, if_true,
    Bool.false_eq_true, if_false]

/-- **How a name that begins as those of a kind do is read.** -/
theorem parse?_head_append : parse? (c.head ++ rest) = some c ↔ c.IsNamed rest := by
  cases c with
  | priceUpdate market =>
    simp [head, parse?_priceHead, IsNamed, market?, marketOf?_eq_some_iff]
  | orderBookUpdate market =>
    simp [head, parse?_orderBookHead, IsNamed, market?, marketOf?_eq_some_iff]
  | pricePoster => simp [head, parse?_pricePosterName, IsNamed, market?]
  | orderBookPoster => simp [head, parse?_orderBookPosterName, IsNamed, market?]

/-- What has been read begins as the names of its kind do. -/
theorem exists_head_of_parse? (h : parse? s = some c) : ∃ rest, s = c.head ++ rest := by
  rw [parse?] at h
  split at h
  · rename_i rest hrest
    obtain ⟨market, -, rfl⟩ := Option.map_eq_some_iff.1 h
    exact ⟨rest, (Text.dropPrefix?_eq_some.1 hrest).symm⟩
  · split at h
    · rename_i rest hrest
      obtain ⟨market, -, rfl⟩ := Option.map_eq_some_iff.1 h
      exact ⟨rest, (Text.dropPrefix?_eq_some.1 hrest).symm⟩
    · split at h
      · rename_i hposter
        cases h
        obtain ⟨rest, hrest⟩ := Text.hasPrefix_iff.1 hposter
        exact ⟨rest, hrest.symm⟩
      · split at h
        · rename_i hposter
          cases h
          obtain ⟨rest, hrest⟩ := Text.hasPrefix_iff.1 hposter
          exact ⟨rest, hrest.symm⟩
        · cases h

/-- **Which texts are names of a channel.** -/
theorem parse?_eq_some_iff : parse? s = some c ↔ ∃ rest, s = c.head ++ rest ∧ c.IsNamed rest := by
  constructor
  · intro h
    obtain ⟨rest, rfl⟩ := exists_head_of_parse? h
    exact ⟨rest, rfl, parse?_head_append.1 h⟩
  · rintro ⟨rest, rfl, hnamed⟩
    exact parse?_head_append.2 hnamed

/-! ## Normal form -/

theorem text_eq (c : ChannelKey) : c.text = c.head ++ c.market?.getD "" := by
  cases c <;> simp [text, head, market?]

/-- The channels that their own text gives back. -/
theorem parse?_text_iff :
    parse? c.text = some c ↔
      ∀ market, c.market? = some market → market ≠ "" ∧ Text.IsTrimmed market := by
  rw [text_eq, parse?_head_append, IsNamed]
  refine forall_congr' fun market => forall_congr' fun hmarket => ?_
  rw [hmarket, Option.getD_some, Text.trim_eq_self_iff, and_comm]

/-- **The text of a channel is the normal form of its names.** What has been read from a text is
given back by its own text, and its kind is the only one whose names begin as the text does. The
channels that their own text gives back are the posters and those of a market id that is not
empty and neither starts nor ends with a blank. -/
theorem parse?_text_normal :
    (∀ s c, parse? s = some c →
      parse? c.text = some c ∧
        ∀ d : ChannelKey, Text.hasPrefix d.head s = true ↔ d.head = c.head) ∧
      ∀ c, parse? c.text = some c ↔
        ∀ market, c.market? = some market → market ≠ "" ∧ Text.IsTrimmed market := by
  refine ⟨fun s c h => ?_, fun c => parse?_text_iff⟩
  obtain ⟨rest, rfl, hnamed⟩ := parse?_eq_some_iff.1 h
  refine ⟨parse?_text_iff.2 fun market hmarket => ?_, fun d => ?_⟩
  · obtain ⟨htrim, hne⟩ := hnamed market hmarket
    exact ⟨hne, htrim ▸ Text.isTrimmed_trim rest⟩
  · rw [Text.hasPrefix_iff]
    constructor
    · rintro ⟨rest', h'⟩
      exact head_eq_of_append_eq h'
    · intro hhead
      exact ⟨rest, by rw [hhead]⟩

end ChannelKey

end PushFeed
