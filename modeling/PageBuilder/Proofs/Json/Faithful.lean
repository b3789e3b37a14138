/-
  Values that come back from their text.

  A number may come back as another one, since the reader rounds twice; and a key that comes twice
  comes back once.  Apart from that only the nesting matters, of which the reader has a limit and the
  writer none.

  Programs:       `Number.Survives` — a number comes back from its text; `isTidy` — no object has a key
                  twice; `Faithful`.
  Specification:  `ofText?_write_eq` — the text of a faithful value, in any style, reads as that value
                  if it nests no deeper than the reader allows, and else not at all.
-/
import PageBuilder.Proofs.Json.ReadBack

namespace PageBuilder.Json

/-! ## Numbers -/

/-- **A number that survives** printing and reading. -/
def Number.Survives (n : Number) : Prop := ofText? (number n).compact = some (.number n)

instance (n : Number) : Decidable n.Survives :=
  inferInstanceAs (Decidable (ofText? (number n).compact = some (.number n)))

/-- A number that survives reads back, whatever the room. -/
theorem Number.value?_of_survives {n : Number} (h : n.Survives) (room : Nat) :
    (number n).spell.value? room = some (.number n) := by
  have hread : (number n).spell.value? maxDepth = some (.number n) := by
    have htext : Source.ofText? (number n).compact = some (number n).spell :=
      ofText?_write Style.blank_compact (number n)
    unfold Survives ofText? at h
    rwa [htext, Option.bind_some] at h
  rw [spell] at hread ⊢
  split at hread
  · exact hread
  · cases hread

/-- Whole numbers within the words survive. -/
theorem Number.survives_whole {i : Int} (hi : inRange i = true) : (whole i).Survives := by
  have htext : Source.ofText? (number (.whole i)).compact = some (number (.whole i)).spell :=
    ofText?_write Style.blank_compact _
  unfold Survives ofText?
  rw [htext, Option.bind_some]
  show (Literal.ofInt i).number?.map number = _
  rw [Literal.number?_ofInt hi]
  rfl

/-! ## Keys -/

mutual
/-- **A tidy value**: no object in it has a key twice. -/
def isTidy : Json → Bool
  | .array xs => areTidy xs
  | .object fs => decide (Entries.keys fs).Nodup && holdTidy fs
  | _ => true

def areTidy : List Json → Bool
  | [] => true
  | x :: xs => isTidy x && areTidy xs

def holdTidy : List (String × Json) → Bool
  | [] => true
  | (_, v) :: fs => isTidy v && holdTidy fs
end

/-- A list is tidy when its items are. -/
theorem isTidy_array {xs : List Json} :
    (array xs).isTidy = true ↔ ∀ x ∈ xs, x.isTidy = true := by
  rw [isTidy]
  induction xs with
  | nil => simp [areTidy]
  | cons x xs ih => rw [areTidy, Bool.and_eq_true, ih, List.forall_mem_cons]

/-- An object is tidy when its keys are distinct and its values are tidy. -/
theorem isTidy_object {fs : Fields} :
    (object fs).isTidy = true ↔ (Entries.keys fs).Nodup ∧ ∀ e ∈ fs, e.2.isTidy = true := by
  have hfields : holdTidy fs = true ↔ ∀ e ∈ fs, e.2.isTidy = true := by
    induction fs with
    | nil => simp [holdTidy]
    | cons e fs ih => rw [holdTidy, Bool.and_eq_true, ih, List.forall_mem_cons]
  rw [isTidy, Bool.and_eq_true, decide_eq_true_iff, hfields]

/-! ## Values -/

/-- **A faithful value**: no object has a key twice, and every number survives. -/
structure Faithful (v : Json) : Prop where
  tidy : v.isTidy = true
  numbers : ∀ n ∈ v.numbers, n.Survives

/-- A list is faithful when its items are. -/
theorem faithful_array {xs : List Json} : (array xs).Faithful ↔ ∀ x ∈ xs, x.Faithful := by
  have hnumbers : (∀ n ∈ (array xs).numbers, n.Survives) ↔
      ∀ x ∈ xs, ∀ n ∈ x.numbers, n.Survives := by
    induction xs with
    | nil => simp [Json.numbers, itemNumbers]
    | cons x xs ih =>
      rw [List.forall_mem_cons, ← ih]
      exact List.forall_mem_append
  constructor
  · intro h x hx
    exact ⟨isTidy_array.1 h.tidy x hx, hnumbers.1 h.numbers x hx⟩
  · intro h
    exact ⟨isTidy_array.2 fun x hx => (h x hx).tidy, hnumbers.2 fun x hx => (h x hx).numbers⟩

/-- An object is faithful when its keys are distinct and its values are faithful. -/
theorem faithful_object {fs : Fields} :
    (object fs).Faithful ↔ (Entries.keys fs).Nodup ∧ ∀ e ∈ fs, e.2.Faithful := by
  -- the numbers of an object are those of its values
  have hnumbers : (∀ n ∈ (object fs).numbers, n.Survives) ↔
      ∀ e ∈ fs, ∀ n ∈ e.2.numbers, n.Survives := by
    induction fs with
    | nil => simp [Json.numbers, fieldNumbers]
    | cons e fs ih =>
      rw [List.forall_mem_cons, ← ih]
      exact List.forall_mem_append
  constructor
  · intro h
    obtain ⟨hkeys, htidy⟩ := isTidy_object.1 h.tidy
    exact ⟨hkeys, fun e he => ⟨htidy e he, hnumbers.1 h.numbers e he⟩⟩
  · rintro ⟨hkeys, h⟩
    exact ⟨isTidy_object.2 ⟨hkeys, fun e he => (h e he).tidy⟩,
      hnumbers.2 fun e he => (h e he).numbers⟩

mutual
/-- **The spelling of a faithful value** reads as that value, or it nests too deep. -/
theorem value?_spell : ∀ (v : Json) (room : Nat), v.Faithful →
    v.spell.value? room = if v.depth ≤ room then some v else none
  | .null, _, _ => rfl
  | .bool _, _, _ => rfl
  | .string _, _, _ => rfl
  | .number n, room, hv => by
    have hdepth : (number n).depth ≤ room := Nat.zero_le room
    rw [Number.value?_of_survives (hv.numbers n List.mem_cons_self), if_pos hdepth]
  | .array xs, room, hv => by
    -- one level is spent on the list; with none left, or one too few for an item, it does not read
    rw [spell, Source.value?, values?_spell xs (room - 1) (faithful_array.1 hv), depth]
    split
    · rw [if_neg (by omega)]
    · split
      · rw [if_pos (by omega)]
        rfl
      · rw [if_neg (by omega)]
        rfl
  | .object fs, room, hv => by
    obtain ⟨hkeys, hfs⟩ := faithful_object.1 hv
    rw [spell, Source.value?, fields?_spell fs [] (room - 1) hkeys hfs, depth]
    split
    · rw [if_neg (by omega)]
    · split
      · rw [if_pos (by omega)]
        rfl
      · rw [if_neg (by omega)]
        rfl

/-- The items read back as they were if the room is enough for each. -/
theorem values?_spell : ∀ (xs : List Json) (room : Nat), (∀ x ∈ xs, x.Faithful) →
    Source.values? room (spellItems xs) = if depthItems xs ≤ room then some xs else none
  | [], _, _ => rfl
  | x :: xs, room, hxs => by
    obtain ⟨hx, hxs⟩ := List.forall_mem_cons.1 hxs
    rw [spellItems, Source.values?, value?_spell x room hx, values?_spell xs room hxs, depthItems]
    by_cases hdepth : x.depth ≤ room
    · by_cases hrest : depthItems xs ≤ room
      · rw [if_pos hdepth, if_pos hrest, if_pos (Nat.max_le.2 ⟨hdepth, hrest⟩)]
        rfl
      · rw [if_pos hdepth, if_neg hrest, if_neg fun h => hrest (Nat.max_le.1 h).2]
        rfl
    · rw [if_neg hdepth, if_neg fun h => hdepth (Nat.max_le.1 h).1]
      rfl

theorem fields?_spell : ∀ (fs : List (String × Json)) (before : Fields) (room : Nat),
    (Entries.keys (before ++ fs)).Nodup → (∀ e ∈ fs, e.2.Faithful) →
    Source.fields? room before (spellFields fs)
      = if depthFields fs ≤ room then some (before ++ fs) else none
  | [], before, _, _, _ => by
    rw [List.append_nil]
    rfl
  | (k, v) :: fs, before, room, hkeys, hfs => by
    obtain ⟨hv, hfs⟩ := List.forall_mem_cons.1 hfs
    have hnew : k ∉ Entries.keys before := by
      rw [Entries.keys_append] at hkeys
      intro hk
      exact (List.nodup_append.1 hkeys).2.2 k hk k List.mem_cons_self rfl
    -- a new key goes to the end, so the fields keep their order
    have hput : Entries.put before k v = before ++ [(k, v)] := Entries.put_of_notMem hnew v
    rw [List.append_cons] at hkeys
    rw [spellFields, Source.fields?, value?_spell v room hv, depthFields]
    -- the deepest of the values decides
    by_cases hdepth : v.depth ≤ room
    · rw [if_pos hdepth]
      show Source.fields? room (Entries.put before k v) (spellFields fs) = _
      rw [hput, fields?_spell fs (before ++ [(k, v)]) room hkeys hfs, ← List.append_cons]
      by_cases hrest : depthFields fs ≤ room
      · rw [if_pos hrest, if_pos (Nat.max_le.2 ⟨hdepth, hrest⟩)]
      · rw [if_neg hrest, if_neg fun h => hrest (Nat.max_le.1 h).2]
    · rw [if_neg hdepth, if_neg fun h => hdepth (Nat.max_le.1 h).1]
      rfl
end

/-- **The text of a faithful value** reads as that value, or it nests too deep. -/
theorem ofText?_write_eq {st : Style} (hst : st.Blank) {v : Json} (hv : v.Faithful) :
    ofText? (String.ofList (write st 0 v)) = if v.depth ≤ maxDepth then some v else none := by
  rw [ofText?, ofText?_write hst, Option.bind_some, value?_spell v maxDepth hv]

end PageBuilder.Json
