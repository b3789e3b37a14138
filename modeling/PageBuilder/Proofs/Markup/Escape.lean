/-
  Escaping by a table of references.

  Programs:       `References.write` — a character, or the reference a table has for it;
                  `References.decode` — every reference of a table replaced by its character, once,
                  from left to right.
  Specification:  `safe_escapes` — text between tags and text inside quotes: nothing that ends it is
                  left, every ampersand starts a reference, and decoding gives the text back, as a
                  page does that knows more references than these.
  Crux:           `References.decode_write` — the names of a table are told apart at their start and
                  have no character of the table in them, so no reference reaches over the next one
                  and what a reference gives is never taken for the start of another.
-/
import Mathlib.Data.List.Basic
import PageBuilder.Entries
import PageBuilder.Proofs.Markup.Reference

namespace PageBuilder.Markup

/-! ## Tables of references -/

/-- Characters, each with the name that stands for it behind an ampersand. -/
abbrev References := Entries Char (List Char)

/-- What text between tags is written with. -/
def textReferences : References :=
  [('&', ['a', 'm', 'p', ';']), ('<', ['l', 't', ';']), ('>', ['g', 't', ';']),
   ('{', ['#', '1', '2', '3', ';']), ('}', ['#', '1', '2', '5', ';'])]

/-- What text inside double quotes is written with. -/
def attributeReferences : References :=
  [('&', ['a', 'm', 'p', ';']), ('"', ['q', 'u', 'o', 't', ';'])]

namespace References

/-- **A character**, or the reference to it. -/
def write (t : References) (c : Char) : List Char :=
  match Entries.get? t c with
  | some name => '&' :: name
  | none => [c]

/-- The reference that a text behind an ampersand starts with: its character, and what is behind. -/
def read? (t : References) (cs : List Char) : Option (Char × List Char) :=
  (t.find? fun e => e.2.isPrefixOf cs).map fun e => (e.1, cs.drop e.2.length)

/-- A reference leaves no more than there was. -/
theorem length_of_read? {t : References} {cs r : List Char} {c : Char}
    (h : t.read? cs = some (c, r)) : r.length ≤ cs.length := by
  obtain ⟨e, -, heq⟩ := Option.map_eq_some_iff.1 h
  obtain ⟨-, rfl⟩ := Prod.mk.inj heq
  rw [List.length_drop]
  exact Nat.sub_le _ _

/-- **Decoding**, once, from left to right: what a reference gives is not looked at again. -/
def decode (t : References) : List Char → List Char
  | [] => []
  | c :: r =>
    if c = '&' then
      match _h : t.read? r with
      | some (d, rest) => d :: decode t rest
      | none => c :: decode t r
    else c :: decode t r
termination_by cs => cs.length
decreasing_by
  · exact Nat.lt_succ_of_le (length_of_read? _h)
  · exact Nat.lt_succ_self _
  · exact Nat.lt_succ_self _

/-- **A table that can be read back**: it has the ampersand, no character of the table is in a name,
and no name starts another one. -/
structure Sound (t : References) : Prop where
  ampersand : '&' ∈ Entries.keys t
  bare : ∀ e ∈ t, ∀ f ∈ t, f.1 ∉ e.2
  apart : ∀ e ∈ t, ∀ f ∈ t, e.2 <+: f.2 → e = f

/-! ## What is written -/

variable {t : References}

theorem Sound.notMem (ht : t.Sound) {e : Char × List Char} (he : e ∈ t) {c : Char}
    (hc : c ∈ Entries.keys t) : c ∉ e.2 := by
  obtain ⟨f, hf, rfl⟩ := List.mem_map.1 hc
  exact ht.bare e he f hf

/-- **What is written** is a reference to the character, or the character, which is in no table. -/
theorem write_cases (t : References) (c : Char) :
    (∃ e ∈ t, e.1 = c ∧ t.write c = '&' :: e.2) ∨ (c ∉ Entries.keys t ∧ t.write c = [c]) := by
  unfold write
  cases h : Entries.get? t c with
  | none => exact .inr ⟨Entries.get?_eq_none_iff.1 h, rfl⟩
  | some name => exact .inl ⟨(c, name), Entries.mem_of_get? h, rfl, rfl⟩

/-- Of the characters of a table only the ampersand is left. -/
theorem eq_of_mem_write (ht : t.Sound) {s : List Char} {d : Char}
    (h : d ∈ s.flatMap t.write) (hd : d ∈ Entries.keys t) : d = '&' := by
  obtain ⟨c, -, hc⟩ := List.mem_flatMap.1 h
  rcases t.write_cases c with ⟨e, he, -, hwrite⟩ | ⟨hplain, hwrite⟩
  · rw [hwrite] at hc
    rcases List.mem_cons.1 hc with rfl | hname
    · rfl
    · exact absurd hname (ht.notMem he hd)
  · rw [hwrite] at hc
    obtain rfl := List.mem_singleton.1 hc
    exact absurd hd hplain

/-- A character that a text does not have stands behind it. -/
theorem suffix_of_suffix_append {c : Char} {cs r behind : List Char} (hc : c ∉ cs)
    (h : c :: behind <:+ cs ++ r) : c :: behind <:+ r := by
  induction cs with
  | nil => exact h
  | cons d cs ih =>
    obtain ⟨hd, hcs⟩ := not_or.1 (mt List.mem_cons.2 hc)
    rcases List.suffix_cons_iff.1 h with heq | h
    · exact absurd (List.cons.inj heq).1 hd
    · exact ih hcs h

/-- **Every ampersand starts a reference.** -/
theorem exists_prefix_of_suffix (ht : t.Sound) {s behind : List Char}
    (h : '&' :: behind <:+ s.flatMap t.write) : ∃ e ∈ t, e.2 <+: behind := by
  induction s with
  | nil => exact absurd (List.suffix_nil.1 h) (List.cons_ne_nil _ _)
  | cons c s ih =>
    rw [List.flatMap_cons] at h
    rcases t.write_cases c with ⟨e, he, -, hwrite⟩ | ⟨hplain, hwrite⟩
    · rw [hwrite] at h
      rcases List.suffix_cons_iff.1 h with heq | h
      · exact ⟨e, he, (List.cons.inj heq).2 ▸ List.prefix_append _ _⟩
      · exact ih (suffix_of_suffix_append (ht.notMem he ht.ampersand) h)
    · rw [hwrite] at h
      have hne : '&' ≠ c := fun heq => hplain (heq ▸ ht.ampersand)
      exact ih (suffix_of_suffix_append (mt List.mem_singleton.1 hne) h)

/-! ## What is decoded -/

theorem decode_nil (t : References) : t.decode [] = [] := by rw [decode]

theorem decode_cons {c : Char} (h : c ≠ '&') (r : List Char) :
    t.decode (c :: r) = c :: t.decode r := by rw [decode, if_neg h]

/-- A reference is decoded as its character. -/
theorem decode_reference {c : Char} {cs r : List Char} (h : t.read? cs = some (c, r)) :
    t.decode ('&' :: cs) = c :: t.decode r := by
  rw [decode, if_pos rfl]
  split
  · next heq =>
    obtain ⟨rfl, rfl⟩ := Prod.mk.inj (Option.some.inj (h.symm.trans heq))
    rfl
  · next heq => exact absurd (h.symm.trans heq) (Option.some_ne_none _)

/-- The name of a character is read, whatever is behind it. -/
theorem read?_append (ht : t.Sound) {e : Char × List Char} (he : e ∈ t) (r : List Char) :
    t.read? (e.2 ++ r) = some (e.1, r) := by
  have hfound : t.find? (fun f => f.2.isPrefixOf (e.2 ++ r)) = some e := by
    obtain ⟨f, hf⟩ : ∃ f, t.find? (fun f => f.2.isPrefixOf (e.2 ++ r)) = some f :=
      Option.isSome_iff_exists.1 (List.find?_isSome.2
        ⟨e, he, List.isPrefixOf_iff_prefix.2 (List.prefix_append e.2 r)⟩)
    have hmem := List.mem_of_find?_eq_some hf
    have hprefix : f.2 <+: e.2 ++ r := by
      have hstart := List.find?_some hf
      exact List.isPrefixOf_iff_prefix.1 hstart
    -- both names stand at the start of the text, so one of them starts the other
    rcases List.prefix_or_prefix_of_prefix hprefix (List.prefix_append e.2 r) with h | h
    · rw [hf, ht.apart f hmem e he h]
    · rw [hf, ht.apart e he f hmem h]
  rw [read?, hfound, Option.map_some, List.drop_left]

/-- **A character comes back**, and the text behind it is decoded by itself. -/
theorem decode_write (ht : t.Sound) (c : Char) (r : List Char) :
    t.decode (t.write c ++ r) = c :: t.decode r := by
  rcases t.write_cases c with ⟨e, he, rfl, hwrite⟩ | ⟨hplain, hwrite⟩
  · rw [hwrite]
    exact decode_reference (read?_append ht he r)
  · rw [hwrite]
    have hne : c ≠ '&' := by
      rintro rfl
      exact hplain ht.ampersand
    exact decode_cons hne r

/-- **Decoding gives back what was written.** -/
theorem decode_flatMap (ht : t.Sound) (s : List Char) : t.decode (s.flatMap t.write) = s := by
  induction s with
  | nil => exact t.decode_nil
  | cons c s ih => rw [List.flatMap_cons, decode_write ht, ih]

/-! ## Safe escapes -/

/-- **An escape that is safe and loses nothing**, for text that some characters end. -/
structure Safe (t : References) (ends : List Char) (escape : String → String) : Prop where
  /-- Nothing that ends the text is left in it. -/
  clean : ∀ s, ∀ c ∈ ends, c ∉ (escape s).toList
  /-- Every ampersand starts a reference of the table. -/
  marked : ∀ s behind, '&' :: behind <:+ (escape s).toList → ∃ e ∈ t, e.2 <+: behind
  /-- Decoding once gives back the text, references that were in it included. -/
  decoded : ∀ s, t.decode (escape s).toList = s.toList
  injective : Function.Injective escape
  /-- A reader that goes on up to the next end finds the text there, and nothing of what follows. -/
  found : ∀ s c r, c ∈ ends →
    t.decode (((escape s).toList ++ c :: r).takeWhile (· ∉ ends)) = s.toList

/-- **An escape by a table** is safe wherever only characters of the table end the text. -/
theorem safe_of_sound (ht : t.Sound) {ends : List Char}
    (hkeys : ends ⊆ Entries.keys t) (hampersand : '&' ∉ ends) {escape : String → String}
    (hescape : ∀ s, (escape s).toList = s.toList.flatMap t.write) : t.Safe ends escape := by
  -- a character that ends the text is in the table, and the names have none of the table
  have hclean : ∀ s, ∀ c ∈ ends, c ∉ (escape s).toList := by
    intro s c hc hmem
    rw [hescape] at hmem
    exact hampersand (eq_of_mem_write ht hmem (hkeys hc) ▸ hc)
  have hdecoded : ∀ s, t.decode (escape s).toList = s.toList := by
    intro s
    rw [hescape, decode_flatMap ht]
  refine ⟨hclean, fun s behind h => ?_, hdecoded, fun s s' h => ?_, fun s c r hc => ?_⟩
  · rw [hescape] at h
    exact exists_prefix_of_suffix ht h
  · rw [← String.toList_inj, ← hdecoded s, ← hdecoded s', h]
  · -- the end is found behind the escaped text, since there is none in it
    have hpass : ∀ d ∈ (escape s).toList, decide (d ∉ ends) = true := fun d hd =>
      decide_eq_true fun hmem => hclean s d hmem hd
    have hstop : (c :: r).takeWhile (· ∉ ends) = [] :=
      List.takeWhile_cons_of_neg fun h => of_decide_eq_true h hc
    rw [List.takeWhile_append_of_pos hpass, hstop, List.append_nil, hdecoded]

end References

/-! ## The two escapes -/

theorem sound_textReferences : textReferences.Sound := ⟨by decide, by decide, by decide⟩

theorem sound_attributeReferences : attributeReferences.Sound := ⟨by decide, by decide, by decide⟩

theorem textCharacter_eq (c : Char) : textCharacter c = textReferences.write c := by
  grind [textCharacter, References.write, textReferences, Entries.get?]

theorem attributeCharacter_eq (c : Char) : attributeCharacter c = attributeReferences.write c := by
  grind [attributeCharacter, References.write, attributeReferences, Entries.get?]

/-- Every occurrence of a character, replaced. -/
def replaced (c : Char) (name : List Char) (s : List Char) : List Char :=
  s.flatMap fun d => if d = c then name else [d]

/-- **One pass does for two**: no quote comes from the references that the first pass writes, and the
second pass writes its ampersands too late to be taken for those of the text. -/
theorem flatMap_attributeCharacter (s : List Char) : s.flatMap attributeCharacter
    = replaced '"' ['&', 'q', 'u', 'o', 't', ';'] (replaced '&' ['&', 'a', 'm', 'p', ';'] s) := by
  rw [replaced, replaced, List.flatMap_assoc]
  refine List.flatMap_congr fun c _ => ?_
  unfold attributeCharacter
  split
  · rfl
  · rw [List.flatMap_singleton]

/-- **Escaping is safe and loses nothing**: between tags no angle bracket and no brace is left, inside
double quotes no quote, and decoding gives back the text, whether only these references are known or
those of a page; inside quotes all ampersands are replaced first and all quotes then. -/
theorem safe_escapes :
    textReferences.Safe ['<', '>', '{', '}'] escapeText ∧
    attributeReferences.Safe ['"'] escapeAttribute ∧
    (∀ s, decodeReferences (escapeText s).toList = s.toList ∧
      decodeReferences (escapeAttribute s).toList = s.toList) ∧
    ∀ s, (escapeAttribute s).toList = replaced '"' ['&', 'q', 'u', 'o', 't', ';']
      (replaced '&' ['&', 'a', 'm', 'p', ';'] s.toList) := by
  refine ⟨?_, ?_, fun s => ⟨decodeReferences_escapeText s, decodeReferences_escapeAttribute s⟩,
    fun s => ?_⟩
  · refine References.safe_of_sound sound_textReferences (by decide) (by decide) fun s => ?_
    rw [escapeText, String.toList_ofList]
    exact congrArg s.toList.flatMap (funext textCharacter_eq)
  · refine References.safe_of_sound sound_attributeReferences (by decide) (by decide) fun s => ?_
    rw [escapeAttribute, String.toList_ofList]
    exact congrArg s.toList.flatMap (funext attributeCharacter_eq)
  · rw [escapeAttribute, String.toList_ofList, flatMap_attributeCharacter]

example : textReferences.decode (escapeText "&lt; {x}").toList = "&lt; {x}".toList := by
  decide +kernel

end PageBuilder.Markup
