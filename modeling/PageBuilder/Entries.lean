/-
  Entries: keyed values in the order in which their keys first came.

  JSON objects, variable stores, template registries and the peers of a hub are all entries.  A key
  written again keeps its place; a key removed loses it, in one of two ways:

  * `erase` closes the gap, so the others keep their order;
  * `swapErase` fills the gap with the LAST entry, so one other key may jump forward.

  Specification:  `get?` after each operation, and the list `keys` after each operation.
-/
namespace PageBuilder

/-- Values under keys, in order. -/
abbrev Entries (κ : Type) (α : Type) := List (κ × α)

namespace Entries

variable {κ α β : Type} [DecidableEq κ]

/-! ## Operations -/

/-- The keys in order. -/
def keys (es : Entries κ α) : List κ := es.map (·.1)

/-- The value under a key. -/
def get? : Entries κ α → κ → Option α
  | [], _ => none
  | (k, v) :: r, x => if k = x then some v else get? r x

def contains (es : Entries κ α) (x : κ) : Bool := (get? es x).isSome

/-- Write a value: in place if the key is there, at the end otherwise. -/
def put : Entries κ α → κ → α → Entries κ α
  | [], x, w => [(x, w)]
  | (k, v) :: r, x, w => if k = x then (k, w) :: r else (k, v) :: put r x w

/-- Change the value under a key, if it is there. -/
def modify : Entries κ α → κ → (α → α) → Entries κ α
  | [], _, _ => []
  | (k, v) :: r, x, f => if k = x then (k, f v) :: r else (k, v) :: modify r x f

/-- Remove a key and close the gap. -/
def erase : Entries κ α → κ → Entries κ α
  | [], _ => []
  | (k, v) :: r, x => if k = x then r else (k, v) :: erase r x

/-- Remove a key and move the last entry into the gap. -/
def swapErase : Entries κ α → κ → Entries κ α
  | [], _ => []
  | (k, v) :: r, x =>
    if k = x then
      match r.getLast? with
      | none => []
      | some e => e :: r.dropLast
    else (k, v) :: swapErase r x

/-- Write every entry of `fs`, in order. -/
def putAll (es fs : Entries κ α) : Entries κ α := fs.foldl (fun acc e => put acc e.1 e.2) es

/-! ## Reading after writing -/

@[simp] theorem get?_nil (x : κ) : get? ([] : Entries κ α) x = none := rfl

theorem get?_put (es : Entries κ α) (x y : κ) (w : α) :
    get? (put es x w) y = if x = y then some w else get? es y := by
  induction es with
  | nil => simp [put, get?]
  | cons e r ih => grind [put, get?]

theorem get?_erase_ne (es : Entries κ α) {x y : κ} (h : x ≠ y) :
    get? (erase es x) y = get? es y := by
  induction es with
  | nil => rfl
  | cons e r ih => grind [erase, get?]

theorem mem_keys_of_get? {es : Entries κ α} {x : κ} {v : α} (h : get? es x = some v) :
    x ∈ keys es := by
  induction es with
  | nil => simp at h
  | cons e r ih => grind [get?, keys]

theorem get?_modify (es : Entries κ α) (x y : κ) (f : α → α) :
    get? (modify es x f) y = if x = y then (get? es y).map f else get? es y := by
  induction es with
  | nil => simp [modify, get?]
  | cons e r ih => grind [modify, get?]

/-- Values changed one by one. -/
theorem get?_map (es : Entries κ α) (f : α → β) (x : κ) :
    get? (es.map fun e => (e.1, f e.2)) x = (get? es x).map f := by
  induction es with
  | nil => rfl
  | cons e r ih => grind [get?]

theorem get?_eq_none_iff {es : Entries κ α} {x : κ} : get? es x = none ↔ x ∉ keys es := by
  induction es with
  | nil => simp [keys]
  | cons e r ih => grind [get?, keys]

theorem get?_append (es fs : Entries κ α) (x : κ) :
    get? (es ++ fs) x = (get? es x).or (get? fs x) := by
  induction es with
  | nil => simp
  | cons e r ih => grind [get?]

/-! ## The entries after writing -/

theorem mem_of_get? {es : Entries κ α} {x : κ} {v : α} (h : get? es x = some v) :
    (x, v) ∈ es := by
  induction es with
  | nil => simp at h
  | cons e r ih => grind [get?]

/-- A key that comes once has the value it comes with. -/
theorem get?_of_mem {es : Entries κ α} (h : (keys es).Nodup) {e : κ × α} (he : e ∈ es) :
    get? es e.1 = some e.2 := by
  induction es with
  | nil => exact absurd he List.not_mem_nil
  | cons d r ih =>
    obtain ⟨hd, hr⟩ : d.1 ∉ keys r ∧ (keys r).Nodup := List.nodup_cons.1 h
    rcases List.mem_cons.1 he with rfl | he
    · rw [get?, if_pos rfl]
    · have hne : d.1 ≠ e.1 := by
        intro hk
        rw [hk] at hd
        exact hd (List.mem_map_of_mem he)
      rw [get?, if_neg hne]
      exact ih hr he

theorem mem_put {es : Entries κ α} {x : κ} {w : α} {e : κ × α} (h : e ∈ put es x w) :
    e ∈ es ∨ e = (x, w) := by
  induction es with
  | nil => simpa [put] using h
  | cons d r ih => grind [put]

/-- A key is written behind the entries that do not have it. -/
theorem put_append_of_notMem {es fs : Entries κ α} {x : κ} (h : x ∉ keys es) (w : α) :
    put (es ++ fs) x w = es ++ put fs x w := by
  induction es with
  | nil => rfl
  | cons e r ih =>
    obtain ⟨k, v⟩ := e
    obtain ⟨hk, hr⟩ := not_or.1 (mt List.mem_cons.2 h)
    rw [List.cons_append, put, if_neg (Ne.symm hk), ih hr, List.cons_append]

/-- A new key goes to the end. -/
theorem put_of_notMem {es : Entries κ α} {x : κ} (h : x ∉ keys es) (w : α) :
    put es x w = es ++ [(x, w)] := by
  have hput : put (es ++ []) x w = es ++ put [] x w := put_append_of_notMem h w
  rwa [List.append_nil] at hput

theorem mem_swapErase {es : Entries κ α} {x : κ} {e : κ × α} (h : e ∈ swapErase es x) :
    e ∈ es := by
  induction es with
  | nil => simp [swapErase] at h
  | cons d r ih =>
    obtain ⟨k, v⟩ := d
    rw [swapErase] at h
    split at h
    · split at h
      · simp at h
      · next last hlast =>
        rcases List.mem_cons.1 h with rfl | h
        · exact List.mem_cons_of_mem _ (List.mem_of_getLast? hlast)
        · exact List.mem_cons_of_mem _ (List.dropLast_subset _ h)
    · rcases List.mem_cons.1 h with rfl | h
      · exact List.mem_cons_self
      · exact List.mem_cons_of_mem _ (ih h)

theorem mem_modify {es : Entries κ α} {x : κ} {f : α → α} {e : κ × α} (h : e ∈ modify es x f) :
    e ∈ es ∨ ∃ v, (x, v) ∈ es ∧ e = (x, f v) := by
  induction es with
  | nil => simp [modify] at h
  | cons d r ih => grind [modify]

/-- Writing what is there changes nothing. -/
theorem modify_eq_self {es : Entries κ α} {x : κ} {v : α} {f : α → α} (h : get? es x = some v)
    (hf : f v = v) : modify es x f = es := by
  induction es with
  | nil => rfl
  | cons d r ih => grind [modify, get?]

/-! ## The keys after writing -/

omit [DecidableEq κ] in
theorem keys_append (es fs : Entries κ α) : keys (es ++ fs) = keys es ++ keys fs := List.map_append

theorem keys_put (es : Entries κ α) (x : κ) (w : α) :
    keys (put es x w) = if x ∈ keys es then keys es else keys es ++ [x] := by
  induction es with
  | nil => simp [put, keys]
  | cons e r ih => grind [put, keys]

/-- Writing brings in no key a second time. -/
theorem nodup_keys_put {es : Entries κ α} (h : (keys es).Nodup) (x : κ) (w : α) :
    (keys (put es x w)).Nodup := by
  rw [keys_put]
  split
  · exact h
  · next hx =>
    refine List.nodup_append.2 ⟨h, List.pairwise_singleton _ _, fun a ha b hb => ?_⟩
    rw [List.mem_singleton.1 hb]
    rintro rfl
    exact hx ha

theorem nodup_keys_putAll {es : Entries κ α} (h : (keys es).Nodup) (fs : Entries κ α) :
    (keys (putAll es fs)).Nodup := by
  induction fs generalizing es with
  | nil => exact h
  | cons e r ih => exact ih (nodup_keys_put h e.1 e.2)

/-- Removing leaves every key once. -/
theorem nodup_keys_swapErase {es : Entries κ α} (h : (keys es).Nodup) (x : κ) :
    (keys (swapErase es x)).Nodup := by
  induction es with
  | nil => exact h
  | cons d r ih =>
    obtain ⟨k, v⟩ := d
    obtain ⟨hk, hr⟩ : k ∉ keys r ∧ (keys r).Nodup := List.nodup_cons.1 h
    rw [swapErase]
    split
    · split
      · exact List.nodup_nil
      · next last hlast =>
        -- the last entry came after all others, and now comes before them
        obtain ⟨front, rfl⟩ := List.getLast?_eq_some_iff.1 hlast
        rw [keys_append] at hr
        obtain ⟨hfront, -, hapart⟩ := List.nodup_append.1 hr
        rw [List.dropLast_concat]
        refine List.nodup_cons.2 ⟨fun hmem => ?_, hfront⟩
        exact hapart _ hmem _ (List.mem_singleton_self _) rfl
    · refine List.nodup_cons.2 ⟨fun hmem => ?_, ih hr⟩
      obtain ⟨e, he, rfl⟩ := List.mem_map.1 hmem
      exact hk (List.mem_map_of_mem (mem_swapErase he))

/-- Entries with new keys go to the end, in their order. -/
theorem putAll_of_nodup {es fs : Entries κ α} (h : (keys (es ++ fs)).Nodup) :
    putAll es fs = es ++ fs := by
  induction fs generalizing es with
  | nil => exact (List.append_nil es).symm
  | cons e r ih =>
    have hnew : e.1 ∉ keys es := by
      rw [keys_append] at h
      intro he
      exact (List.nodup_append.1 h).2.2 _ he _ List.mem_cons_self rfl
    have hput : put es e.1 e.2 = es ++ [e] := put_of_notMem hnew e.2
    rw [List.append_cons] at h
    show putAll (put es e.1 e.2) r = _
    rw [hput, ih h, ← List.append_cons]

theorem keys_modify (es : Entries κ α) (x : κ) (f : α → α) : keys (modify es x f) = keys es := by
  induction es with
  | nil => rfl
  | cons e r ih => grind [modify, keys]

theorem keys_erase (es : Entries κ α) (x : κ) : keys (erase es x) = (keys es).erase x := by
  induction es with
  | nil => rfl
  | cons e r ih => grind [erase, keys]

/-- A key that comes once is gone when it is removed. -/
theorem get?_erase_self {es : Entries κ α} (h : (keys es).Nodup) (x : κ) :
    get? (erase es x) x = none := by
  rw [get?_eq_none_iff, keys_erase]
  exact h.not_mem_erase

/-- Where every key comes once, what is found does not depend on the order. -/
theorem get?_of_perm {es fs : Entries κ α} (h : es.Perm fs) (hes : (keys es).Nodup) (x : κ) :
    get? es x = get? fs x := by
  have hkeys : (keys es).Perm (keys fs) := h.map _
  cases hx : get? es x with
  | none =>
    rw [get?_eq_none_iff] at hx
    rw [eq_comm, get?_eq_none_iff]
    exact fun hmem => hx (hkeys.mem_iff.2 hmem)
  | some v => exact (get?_of_mem (hkeys.nodup hes) (h.mem_iff.1 (mem_of_get? hx))).symm

/-- Whether the gap is filled or closed, the same entries stay. -/
theorem swapErase_perm (es : Entries κ α) (x : κ) : (swapErase es x).Perm (erase es x) := by
  induction es with
  | nil => exact List.Perm.refl _
  | cons d r ih =>
    obtain ⟨k, v⟩ := d
    rw [swapErase, erase]
    split
    · cases hlast : r.getLast? with
      | none => rw [List.getLast?_eq_none_iff.1 hlast]
      | some e =>
        obtain ⟨front, rfl⟩ := List.getLast?_eq_some_iff.1 hlast
        rw [List.dropLast_concat]
        exact (List.perm_append_singleton e front).symm
    · exact ih.cons (k, v)

theorem get?_swapErase {es : Entries κ α} (h : (keys es).Nodup) (x y : κ) :
    get? (swapErase es x) y = if x = y then none else get? es y := by
  rw [get?_of_perm (swapErase_perm es x) (nodup_keys_swapErase h x)]
  split
  · next hxy => rw [← hxy, get?_erase_self h]
  · next hxy => exact get?_erase_ne es hxy

/-- What was written last is found first. -/
theorem get?_putAll (es : Entries κ α) {fs : Entries κ α} (h : (keys fs).Nodup) (x : κ) :
    get? (putAll es fs) x = (get? fs x).or (get? es x) := by
  induction fs generalizing es with
  | nil => rfl
  | cons e r ih =>
    obtain ⟨he, hr⟩ : e.1 ∉ keys r ∧ (keys r).Nodup := List.nodup_cons.1 h
    have hrest : get? (putAll es (e :: r)) x = (get? r x).or (get? (put es e.1 e.2) x) := ih _ hr
    rw [hrest, get?_put, get?]
    split
    · next hx =>
      rw [← hx, get?_eq_none_iff.2 he]
      rfl
    · rfl

example : swapErase [(1, "a"), (2, "b"), (3, "c")] 1 = [(3, "c"), (2, "b")] := by decide
example : erase [(1, "a"), (2, "b"), (3, "c")] 1 = [(2, "b"), (3, "c")] := by decide

end Entries
end PageBuilder
