/-
  Strings are not made by reading.

  Programs:       `Token.weight`, `weight` — what the strings of a token and of a value weigh, each
                  string by itself.
  Specification:  `weight_le_of_value?` — a value weighs no more than the tokens that spell it.
  Crux:           `weight_step` — a step of the machine keeps the weight of what it holds, the brackets
                  that are open included; only a key that comes twice is lost, and that later.
-/
import PageBuilder.Proofs.Json.Tokens

namespace PageBuilder.Json

variable (w : String → Nat)

/-- What the string of a token weighs. -/
def Token.weight (t : Token) : Nat := t.text?.elim 0 w

/-- What the strings of a value weigh. -/
def weight (v : Json) : Nat := (v.texts.map w).sum

/-- Only the strings among tokens weigh. -/
theorem sum_weight_eq (ts : List Token) :
    (ts.map (Token.weight w)).sum = ((ts.filterMap Token.text?).map w).sum := by
  induction ts with
  | nil => rfl
  | cons t ts ih =>
    rw [List.map_cons, List.sum_cons, ih, Token.weight]
    cases ht : t.text? with
    | none =>
      rw [List.filterMap_cons_none ht]
      exact Nat.zero_add _
    | some s =>
      rw [List.filterMap_cons_some ht, List.map_cons, List.sum_cons]
      rfl

/-- A value weighs what its tokens weigh. -/
theorem weight_eq (v : Json) : weight w v = (v.tokens.map (Token.weight w)).sum := by
  rw [weight, ← filterMap_tokens, sum_weight_eq]

/-! ## Trees -/

mutual
/-- What the strings of a tree weigh. -/
def Source.weight : Source → Nat
  | .string s => s.elim 0 w
  | .array xs => Source.weights xs
  | .object fs => Source.fieldWeights fs
  | _ => 0

def Source.weights : List Source → Nat
  | [] => 0
  | x :: xs => Source.weight x + Source.weights xs

def Source.fieldWeights : List (Option String × Source) → Nat
  | [] => 0
  | (k, v) :: fs => k.elim 0 w + Source.weight v + Source.fieldWeights fs
end

theorem Source.weights_eq (xs : List Source) : Source.weights w xs = (xs.map (Source.weight w)).sum := by
  induction xs with
  | nil => rfl
  | cons x xs ih => rw [Source.weights, ih, List.map_cons, List.sum_cons]

/-- Fields weigh what their keys and their values weigh. -/
theorem Source.fieldWeights_eq (fs : List (Option String × Source)) :
    Source.fieldWeights w fs = (fs.map fun e => e.1.elim 0 w + e.2.weight w).sum := by
  induction fs with
  | nil => rfl
  | cons e fs ih => rw [Source.fieldWeights, ih, List.map_cons, List.sum_cons]

theorem Source.weight_array_reverse (xs : List Source) :
    Source.weight w (.array xs.reverse) = Source.weights w xs := by
  rw [Source.weight, weights_eq, weights_eq, List.map_reverse, List.sum_reverse]

theorem Source.weight_object_reverse (fs : List (Option String × Source)) :
    Source.weight w (.object fs.reverse) = Source.fieldWeights w fs := by
  rw [Source.weight, fieldWeights_eq, fieldWeights_eq, List.map_reverse, List.sum_reverse]

/-! ## The machine -/

/-- What the strings inside an open bracket weigh. -/
def Frame.weight : Frame → Nat
  | .items done => Source.weights w done
  | .fields done key => Source.fieldWeights w done + key.elim 0 w

def Frame.weights (stack : List Frame) : Nat := (stack.map (Frame.weight w)).sum

namespace Reading

/-- What the strings that the machine holds weigh. -/
def weight : Reading → Nat
  | .value stack | .firstItem stack | .firstKey stack => Frame.weights w stack
  | .afterItem done stack => Source.weights w done + Frame.weights w stack
  | .nextKey done stack | .afterField done stack =>
    Source.fieldWeights w done + Frame.weights w stack
  | .colon done key stack => Source.fieldWeights w done + key.elim 0 w + Frame.weights w stack
  | .finished v => v.weight w

/-- A value that is handed to the open brackets adds its weight. -/
theorem weight_supply (v : Source) (stack : List Frame) :
    (supply v stack).weight w = v.weight w + Frame.weights w stack := by
  cases stack with
  | nil => rfl
  | cons f stack =>
    cases f with
    | items done =>
      show v.weight w + Source.weights w done + Frame.weights w stack
        = v.weight w + (Source.weights w done + Frame.weights w stack)
      omega
    | fields done key =>
      show key.elim 0 w + v.weight w + Source.fieldWeights w done + Frame.weights w stack
        = v.weight w + (Source.fieldWeights w done + key.elim 0 w + Frame.weights w stack)
      omega

/-- A token that starts a value adds its weight. -/
theorem weight_startValue? {stack : List Frame} {t : Token} {s : Reading}
    (h : startValue? stack t = some s) : s.weight w = Frame.weights w stack + t.weight w := by
  cases t with
  | null | bool | number | string =>
    obtain rfl := Option.some.inj h
    exact (weight_supply w _ stack).trans (Nat.add_comm _ _)
  | openArray | openObject =>
    obtain rfl := Option.some.inj h
    rfl
  | _ => nomatch h

/-- **A step** keeps the weight. -/
theorem weight_step {s s' : Reading} {t : Token} (h : s.step? t = some s') :
    s'.weight w = s.weight w + t.weight w := by
  -- one case for each state of the machine, in the order of its definition
  unfold step? at h
  split at h
  · exact weight_startValue? w h
  · obtain rfl := Option.some.inj h
    exact (weight_supply w _ _).trans (Nat.zero_add _)
  · exact (weight_startValue? w h).trans (congrArg (· + _) (Nat.zero_add _))
  · obtain rfl := Option.some.inj h
    rfl
  · obtain rfl := Option.some.inj h
    rw [weight_supply, Source.weight_array_reverse]
    rfl
  · obtain rfl := Option.some.inj h
    exact (weight_supply w _ _).trans (Nat.zero_add _)
  · next stack k =>
    obtain rfl := Option.some.inj h
    show 0 + k.elim 0 w + Frame.weights w stack = Frame.weights w stack + k.elim 0 w
    omega
  · next done stack k =>
    obtain rfl := Option.some.inj h
    show Source.fieldWeights w done + k.elim 0 w + Frame.weights w stack
      = Source.fieldWeights w done + Frame.weights w stack + k.elim 0 w
    omega
  · obtain rfl := Option.some.inj h
    rfl
  · obtain rfl := Option.some.inj h
    rfl
  · obtain rfl := Option.some.inj h
    rw [weight_supply, Source.weight_object_reverse]
    rfl
  · nomatch h

theorem weight_foldlM {ts : List Token} {s s' : Reading} (h : ts.foldlM step? s = some s') :
    s'.weight w = s.weight w + (ts.map (Token.weight w)).sum := by
  induction ts generalizing s with
  | nil =>
    obtain rfl := Option.some.inj h
    rfl
  | cons t ts ih =>
    rw [List.foldlM_cons] at h
    obtain ⟨s₁, hstep, hrest⟩ := Option.bind_eq_some_iff.1 h
    rw [ih hrest, weight_step w hstep, List.map_cons, List.sum_cons, Nat.add_assoc]

end Reading

/-! ## Values -/

/-- What the strings of fields weigh. -/
def fieldWeight (fs : Fields) : Nat := ((fieldTexts fs).map w).sum

/-- The first field counts with its key. -/
theorem fieldWeight_cons (k : String) (v : Json) (fs : Fields) :
    fieldWeight w ((k, v) :: fs) = w k + weight w v + fieldWeight w fs := by
  rw [fieldWeight, fieldTexts, List.map_cons, List.map_append, List.sum_cons, List.sum_append,
    Nat.add_assoc]
  rfl

/-- A field that is written over another one takes its place. -/
theorem fieldWeight_put_le (fs : Fields) (k : String) (v : Json) :
    fieldWeight w (Entries.put fs k v) ≤ fieldWeight w fs + w k + weight w v := by
  induction fs with
  | nil =>
    rw [Entries.put, fieldWeight_cons]
    omega
  | cons e fs ih =>
    obtain ⟨l, x⟩ := e
    rw [Entries.put]
    split
    · next hkey =>
      rw [fieldWeight_cons, fieldWeight_cons, hkey]
      omega
    · rw [fieldWeight_cons, fieldWeight_cons]
      omega

mutual
/-- **A value weighs no more than the tree** that it was read from. -/
theorem weight_le_of_value? : ∀ (s : Source) {room : Nat} {v : Json}, s.value? room = some v →
    weight w v ≤ s.weight w
  | .null, _, _, h | .bool _, _, _, h => by
    obtain rfl := Option.some.inj h
    exact Nat.le_refl _
  | .number n, _, _, h => by
    rw [Source.value?] at h
    obtain ⟨m, -, rfl⟩ := Option.map_eq_some_iff.1 h
    exact Nat.le_refl _
  | .string s, _, _, h => by
    rw [Source.value?] at h
    obtain ⟨t, rfl, rfl⟩ := Option.map_eq_some_iff.1 h
    exact Nat.le_refl _
  | .array xs, _, _, h => by
    rw [Source.value?] at h
    split at h
    · nomatch h
    · obtain ⟨vs, hvs, rfl⟩ := Option.map_eq_some_iff.1 h
      exact weights_le_of_values? xs hvs
  | .object fs, _, _, h => by
    rw [Source.value?] at h
    split at h
    · nomatch h
    · obtain ⟨gs, hgs, rfl⟩ := Option.map_eq_some_iff.1 h
      exact (fieldWeight_le_of_fields? fs hgs).trans (Nat.le_of_eq (Nat.zero_add _))

/-- Items that are read weigh no more than their text. -/
theorem weights_le_of_values? : ∀ (xs : List Source) {room : Nat} {vs : List Json},
    Source.values? room xs = some vs → ((itemTexts vs).map w).sum ≤ Source.weights w xs
  | [], _, _, h => by
    obtain rfl := Option.some.inj h
    exact Nat.le_refl _
  | x :: xs, _, _, h => by
    simp only [Source.values?, Option.bind_eq_bind, Option.bind_eq_some_iff] at h
    obtain ⟨v, hv, vs, hvs, h⟩ := h
    obtain rfl := Option.some.inj h
    have hfirst : ((texts v).map w).sum ≤ x.weight w := weight_le_of_value? x hv
    have hrest := weights_le_of_values? xs hvs
    rw [itemTexts, List.map_append, List.sum_append, Source.weights]
    omega

theorem fieldWeight_le_of_fields? : ∀ (fs : List (Option String × Source)) {room : Nat}
    {before gs : Fields}, Source.fields? room before fs = some gs →
    fieldWeight w gs ≤ fieldWeight w before + Source.fieldWeights w fs
  | [], _, _, _, h => by
    obtain rfl := Option.some.inj h
    exact Nat.le_refl _
  | (none, _) :: _, _, _, _, h => nomatch h
  | (some k, x) :: fs, _, before, _, h => by
    simp only [Source.fields?, Option.bind_eq_bind, Option.bind_eq_some_iff] at h
    obtain ⟨v, hv, h⟩ := h
    have hvalue := weight_le_of_value? x hv
    -- a value under an old key takes the place of one, so the weight may drop
    have hput := fieldWeight_put_le w before k v
    have hrest := fieldWeight_le_of_fields? fs h
    have hkey : (some k).elim 0 w = w k := rfl
    rw [Source.fieldWeights, hkey]
    omega
end

end PageBuilder.Json
