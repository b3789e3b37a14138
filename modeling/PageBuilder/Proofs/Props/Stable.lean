/-
  Stable props: those that come back from the wire as they were.

  Programs:       `Format.isStable`, `Record.isStable` — a cell, and every cell of a record, holds a
                  finite number if it holds a number at all; `Props.remake?` — an object read as
                  props like those that there are.
  Specification:  `Props.recover_toFields` — stable props are recovered from what is written of them;
                  `Props.stable_recover`, `Props.stable_of_merged?` — what is read from proper
                  values, and what an edit merges out of proper values, is stable.
  Crux:           `Record.read?_write` — every field is looked up in ONE object that holds the fields
                  of all, so the induction on the fields carries the part in front and the part
                  behind, neither of which has a key of theirs.
-/
import PageBuilder.Proofs.Json.Proper
import PageBuilder.Props.Palette

namespace PageBuilder

/-! ## Cells -/

namespace Format

/-- Whether a cell comes back from the wire: a number has to be finite. -/
def isStable : (f : Format) → f.Cell → Bool
  | .number, c => c.all Binary64.isFinite
  | _, _ => true

/-- Reading what was written, item by item. -/
theorem mapM_map {α β : Type} (read : β → Option α) (write : α → β)
    (h : ∀ a, read (write a) = some a) (xs : List α) : (xs.map write).mapM read = some xs := by
  induction xs with
  | nil => rfl
  | cons x xs ih => simp [h, ih]

theorem readList_writeNames (xs : List String) :
    readList Json.string? (writeNames xs) = some xs :=
  mapM_map Json.string? Json.string (fun _ => rfl) xs

theorem readList_map_writeNames (rs : List (List String)) :
    readList (readList Json.string?) (.array (rs.map writeNames)) = some rs :=
  mapM_map (readList Json.string?) writeNames readList_writeNames rs

/-- A value that is there and reads is set to what it reads as. -/
theorem readSet_of_read {α : Type} {read : Json → Option α} {v : Json} {a : α}
    (hv : v.isNull = false) (h : read v = some a) : readSet read v = some (some a) := by
  cases v with
  | null => nomatch hv
  | _ => exact congrArg (Option.map some) h

/-- A count keeps within its word, so it reads back as itself. -/
theorem readCount_ofNat (n : UInt32) : readCount (Json.ofNat n.toNat) = some n := by
  have hlt : n.toNat < UInt32.size := n.toNat_lt
  have hround : UInt32.ofNat n.toNat = n := UInt32.ofNat_toNat
  simp only [readCount, Json.ofNat]
  rw [if_pos ⟨Int.natCast_nonneg _, by exact_mod_cast hlt⟩, Int.toNat_natCast, hround]

/-- **A cell's round trip.** -/
theorem read_of_write {f : Format} {c : f.Cell} {v : Json} (h : f.isStable c = true)
    (hw : f.write c = some v) : f.read v = some c := by
  -- a number reads back for being finite, every other format for what it is
  cases f with
  | items =>
    rw [← Option.some.inj hw]
    exact mapM_map ListItem.ofJson? ListItem.toJson ListItem.ofJson?_toJson c
  | text =>
    obtain ⟨s, rfl, rfl⟩ := Option.map_eq_some_iff.1 hw
    rfl
  | number =>
    obtain ⟨x, rfl, rfl⟩ := Option.map_eq_some_iff.1 hw
    obtain ⟨n, u, rfl⟩ := Binary64.isFinite_iff.1 h
    rfl
  | count =>
    obtain ⟨n, rfl, rfl⟩ := Option.map_eq_some_iff.1 hw
    have hread : readSet readCount (Json.ofNat n.toNat) = some (some n) :=
      readSet_of_read rfl (readCount_ofNat n)
    exact hread
  | names =>
    obtain ⟨xs, rfl, rfl⟩ := Option.map_eq_some_iff.1 hw
    exact readSet_of_read rfl (readList_writeNames xs)
  | rows =>
    obtain ⟨rs, rfl, rfl⟩ := Option.map_eq_some_iff.1 hw
    exact readSet_of_read rfl (readList_map_writeNames rs)
  | buttonVariant | badgeVariant | tone | sortKey | sortOrder =>
    obtain ⟨a, rfl, rfl⟩ := Option.map_eq_some_iff.1 hw
    exact readSet_of_read rfl (Choice.ofJson?_toJson a)

/-- A cell without a field is the blank one. -/
theorem eq_blank_of_write {f : Format} {c : f.Cell} (h : f.write c = none) : c = f.blank := by
  cases f with
  | items => nomatch h
  | _ => exact Option.map_eq_none_iff.1 h

theorem isStable_blank (f : Format) : f.isStable f.blank = true := by
  cases f <;> rfl

/-- What is read from a proper value is stable. -/
theorem isStable_of_read {f : Format} {c : f.Cell} {v : Json} (hv : v.isProper = true)
    (h : f.read v = some c) : f.isStable c = true := by
  -- the other formats are stable whatever they hold
  cases f with
  | number =>
    cases v with
    | null =>
      rw [← Option.some.inj h]
      rfl
    | number n =>
      rw [← Option.some.inj h]
      exact Json.Number.isFinite_toBinary64 hv
    | bool _ | string _ | array _ | object _ => nomatch h
  | _ => rfl

theorem isProper_ofBinary64 (x : Binary64) : (Json.ofBinary64 x).isProper = true := by
  cases x <;> rfl

theorem isProper_ofNat (n : UInt32) : (Json.ofNat n.toNat).isProper = true := by
  have hlt : n.toNat < 4294967296 := n.toNat_lt
  simp only [Json.ofNat, Json.isProper_number, Json.Number.isProper, Json.Number.inRange,
    Json.Number.halfWord, Json.Number.wordSize, Bool.and_eq_true]
  exact ⟨decide_eq_true (by omega), decide_eq_true (by omega)⟩

/-- Items that are written one by one are proper as soon as each of them is. -/
theorem areProper_map {α : Type} (write : α → Json) (h : ∀ a, (write a).isProper = true)
    (xs : List α) : Json.areProper (xs.map write) = true := by
  rw [Json.areProper_iff]
  intro v hv
  obtain ⟨a, -, rfl⟩ := List.mem_map.1 hv
  exact h a

theorem isProper_writeNames (xs : List String) : (writeNames xs).isProper = true :=
  areProper_map Json.string (fun _ => rfl) xs

theorem isProper_toJson (i : ListItem) : i.toJson.isProper = true := by
  obtain ⟨id, title, subtitle, value, badge⟩ := i
  cases subtitle <;> cases value <;> cases badge <;> rfl

/-- What is written is proper, whatever the cell holds. -/
theorem isProper_of_write {f : Format} {c : f.Cell} {v : Json} (h : f.write c = some v) :
    v.isProper = true := by
  -- split by what a format writes: a number, a word for a choice, a text, or a list of these
  cases f with
  | items =>
    rw [← Option.some.inj h]
    exact areProper_map ListItem.toJson isProper_toJson c
  | text | buttonVariant | badgeVariant | tone | sortKey | sortOrder =>
    obtain ⟨a, -, rfl⟩ := Option.map_eq_some_iff.1 h
    rfl
  | number =>
    obtain ⟨x, -, rfl⟩ := Option.map_eq_some_iff.1 h
    exact isProper_ofBinary64 x
  | count =>
    obtain ⟨n, -, rfl⟩ := Option.map_eq_some_iff.1 h
    exact isProper_ofNat n
  | names =>
    obtain ⟨xs, -, rfl⟩ := Option.map_eq_some_iff.1 h
    exact isProper_writeNames xs
  | rows =>
    obtain ⟨rs, -, rfl⟩ := Option.map_eq_some_iff.1 h
    exact areProper_map writeNames isProper_writeNames rs

end Format

/-! ## Records -/

namespace Record

/-- Every cell comes back from the wire. -/
def isStable : (fs : List Field) → Record fs → Bool
  | [], _ => true
  | f :: fs, (c, r) => f.format.isStable c && isStable fs r

/-- The keys of some fields. -/
abbrev keys (fs : List Field) : List String := fs.map (·.key)

theorem key_of_mem_writeField {f : Field} {c : f.format.Cell} {e : String × Json}
    (h : e ∈ writeField f c) : e.1 = f.key := by
  unfold writeField at h
  split at h
  · simp at h
  · rw [List.mem_singleton.1 h]

/-- What cells write stands under the keys of their fields. -/
theorem key_of_mem_write : ∀ (fs : List Field) (r : Record fs) {e : String × Json},
    e ∈ write fs r → e.1 ∈ keys fs
  | [], _, _, h => by simp [write] at h
  | f :: fs, (c, r), e, h => by
    rcases List.mem_append.1 h with h | h
    · rw [key_of_mem_writeField h]
      exact List.mem_cons_self
    · exact List.mem_cons_of_mem _ (key_of_mem_write fs r h)

theorem get?_eq_none {m : Json.Fields} {k : String} (h : ∀ e ∈ m, e.1 ≠ k) :
    Entries.get? m k = none := by
  rw [Entries.get?_eq_none_iff]
  intro hk
  obtain ⟨e, he, hek⟩ := List.mem_map.1 hk
  exact h e he hek

/-- A field reads back from an object that has no other field of its key. -/
theorem readField?_writeField {f : Field} {c : f.format.Cell} {before after : Json.Fields}
    (hc : f.format.isStable c = true) (hbefore : ∀ e ∈ before, e.1 ≠ f.key)
    (hafter : ∀ e ∈ after, e.1 ≠ f.key) :
    readField? f (before ++ (writeField f c ++ after)) = some c := by
  have hlookup : Entries.get? (before ++ (writeField f c ++ after)) f.key = f.format.write c := by
    rw [Entries.get?_append, get?_eq_none hbefore, Option.none_or, Entries.get?_append,
      get?_eq_none hafter, Option.or_none]
    -- no other entry has the key, so the look-up meets this field or nothing
    unfold writeField
    cases f.format.write c with
    | none => rfl
    | some v => exact if_pos rfl
  unfold readField?
  rw [hlookup]
  cases hw : f.format.write c with
  | none => exact congrArg some (Format.eq_blank_of_write hw).symm
  | some v => exact Format.read_of_write hc hw

/-- **A record's round trip**, out of an object that has more fields in front and behind. -/
theorem read?_write : ∀ (fs : List Field) (r : Record fs) (before after : Json.Fields),
    (keys fs).Nodup → isStable fs r = true → (∀ e ∈ before, e.1 ∉ keys fs) →
    (∀ e ∈ after, e.1 ∉ keys fs) → read? fs (before ++ (write fs r ++ after)) = some r
  | [], _, _, _, _, _, _, _ => rfl
  | f :: fs, (c, r), before, after, hkeys, hr, hbefore, hafter => by
    have hf : f.key ∉ keys fs := (List.nodup_cons.1 hkeys).1
    have hfs : (keys fs).Nodup := (List.nodup_cons.1 hkeys).2
    obtain ⟨hc, hr⟩ := Bool.and_eq_true_iff.1 hr
    have hhead : readField? f (before ++ (writeField f c ++ (write fs r ++ after))) = some c := by
      -- neither what stands in front nor the later fields have the key of the first one
      refine readField?_writeField hc ?_ ?_
      · intro e he hk
        exact hbefore e he (hk ▸ List.mem_cons_self)
      · intro e he hk
        rcases List.mem_append.1 he with he | he
        · exact hf (hk ▸ key_of_mem_write fs r he)
        · exact hafter e he (hk ▸ List.mem_cons_self)
    have htail : read? fs (before ++ (writeField f c ++ (write fs r ++ after))) = some r := by
      rw [← List.append_assoc]
      -- for the later fields the first one belongs to what stands in front
      refine read?_write fs r (before ++ writeField f c) after hfs hr ?_ ?_
      · intro e he hk
        rcases List.mem_append.1 he with he | he
        · exact hbefore e he (List.mem_cons_of_mem _ hk)
        · exact hf (key_of_mem_writeField he ▸ hk)
      · intro e he hk
        exact hafter e he (List.mem_cons_of_mem _ hk)
    show read? (f :: fs) (before ++ (writeField f c ++ write fs r ++ after)) = some (c, r)
    rw [List.append_assoc, read?, hhead, htail]
    rfl

theorem isStable_blank : ∀ fs : List Field, isStable fs (blank fs) = true
  | [] => rfl
  | f :: fs => Bool.and_eq_true_iff.2 ⟨Format.isStable_blank f.format, isStable_blank fs⟩

/-- A cell that was read from a proper value is stable; one that was not there is blank. -/
theorem isStable_of_readField? {f : Field} {m : Json.Fields} {c : f.format.Cell}
    (hm : ∀ e ∈ m, e.1 = f.key → e.2.isProper = true) (h : readField? f m = some c) :
    f.format.isStable c = true := by
  unfold readField? at h
  split at h
  · rw [← Option.some.inj h]
    exact Format.isStable_blank f.format
  · next v hv => exact Format.isStable_of_read (hm _ (Entries.mem_of_get? hv) rfl) h

/-- What is read from proper fields is stable; fields of other keys may hold anything. -/
theorem isStable_of_read? : ∀ (fs : List Field) {m : Json.Fields} {r : Record fs},
    (∀ e ∈ m, e.1 ∈ keys fs → e.2.isProper = true) → read? fs m = some r →
    isStable fs r = true
  | [], _, _, _, _ => rfl
  | f :: fs, m, (c, r), hm, h => by
    simp only [read?, Option.bind_eq_bind, Option.bind_eq_some_iff] at h
    obtain ⟨c', hc, r', hr, h⟩ := h
    obtain ⟨rfl, rfl⟩ := Prod.mk.inj (Option.some.inj h)
    -- the first cell sees its own key only, the others see theirs
    refine Bool.and_eq_true_iff.2 ⟨isStable_of_readField? ?_ hc, isStable_of_read? fs ?_ hr⟩
    · intro e he hk
      exact hm e he (hk ▸ List.mem_cons_self)
    · intro e he hk
      exact hm e he (List.mem_cons_of_mem _ hk)

/-- Whatever cells write is proper. -/
theorem isProper_of_mem_write : ∀ (fs : List Field) (r : Record fs) {e : String × Json},
    e ∈ write fs r → e.2.isProper = true
  | [], _, _, h => by simp [write] at h
  | f :: fs, (c, r), e, h => by
    rcases List.mem_append.1 h with h | h
    · -- a cell of the first field
      unfold writeField at h
      split at h
      · simp at h
      · next v hv =>
        rw [List.mem_singleton.1 h]
        exact Format.isProper_of_write hv
    · exact isProper_of_mem_write fs r h

end Record

/-! ## Settings -/

/-- No kind models two fields of one key. -/
theorem Kind.nodup_keys (k : Kind) : k.keys.Nodup := by
  cases k <;> decide

namespace Settings

variable {k : Kind}

/-- **Stable settings**: the cells come back from the wire, and no field that is kept as it came has
a key that the kind models. -/
structure Stable (s : Settings k) : Prop where
  cells : Record.isStable k.fields s.cells = true
  others : ∀ e ∈ s.others, e.1 ∉ k.keys

/-- **What parses**: the cells and the class name as they are read, and all other fields. -/
theorem parse?_eq_some_iff {m : Json.Fields} {s : Settings k} :
    parse? k m = some s ↔ Record.read? k.fields m = some s.cells ∧
      Record.readField? Field.className m = some s.className ∧
      s.others = m.filter fun e => !k.keys.contains e.1 := by
  constructor
  · intro h
    simp only [parse?, Option.bind_eq_bind, Option.bind_eq_some_iff] at h
    obtain ⟨cells, hcells, className, hclass, h⟩ := h
    rw [← Option.some.inj h]
    exact ⟨hcells, hclass, rfl⟩
  · rintro ⟨hcells, hclass, hothers⟩
    rw [parse?, hcells, hclass, ← hothers]
    rfl

theorem mem_keys_iff {x : String} :
    x ∈ k.keys ↔ x ∈ Record.keys k.fields ∨ x = Field.className.key := by
  unfold Kind.keys
  rw [List.mem_append, List.mem_singleton]

theorem className_not_mem : Field.className.key ∉ Record.keys k.fields := by
  intro h
  exact (List.nodup_append.1 k.nodup_keys).2.2 _ h _ List.mem_cons_self rfl

/-- **The round trip** of settings. -/
theorem parse?_toFields {s : Settings k} (h : s.Stable) : parse? k s.toFields = some s := by
  have hothers : ∀ e ∈ s.others, e.1 ∉ Record.keys k.fields ∧ e.1 ≠ Field.className.key := by
    intro e he
    have := h.others e he
    rw [mem_keys_iff] at this
    exact not_or.1 this
  have hcells : Record.read? k.fields s.toFields = some s.cells := by
    unfold toFields
    rw [List.append_assoc]
    refine Record.read?_write k.fields s.cells [] _ (List.nodup_append.1 k.nodup_keys).1 h.cells
      nofun ?_
    intro e he
    -- behind the cells stand the class name and the fields that the kind does not model
    rcases List.mem_append.1 he with he | he
    · rw [Record.key_of_mem_writeField he]
      exact className_not_mem
    · exact (hothers e he).1
  have hclass : Record.readField? Field.className s.toFields = some s.className := by
    unfold toFields
    rw [List.append_assoc]
    refine Record.readField?_writeField rfl ?_ ?_
    · intro e he hk
      exact className_not_mem (hk ▸ Record.key_of_mem_write k.fields s.cells he)
    · intro e he
      exact (hothers e he).2
  have hrest : s.toFields.filter (fun e => !k.keys.contains e.1) = s.others := by
    -- what the filter drops is what the kind models, and that comes first
    have hmodelled : (Record.write k.fields s.cells
        ++ Record.writeField Field.className s.className).filter
          (fun e => !k.keys.contains e.1) = [] := by
      rw [List.filter_eq_nil_iff]
      intro e he
      have hk : e.1 ∈ k.keys := by
        rw [mem_keys_iff]
        rcases List.mem_append.1 he with he | he
        · exact Or.inl (Record.key_of_mem_write k.fields s.cells he)
        · exact Or.inr (Record.key_of_mem_writeField he)
      simp [hk]
    unfold toFields
    rw [List.filter_append, hmodelled, List.nil_append, List.filter_eq_self]
    intro e he
    simp [h.others e he]
  exact parse?_eq_some_iff.2 ⟨hcells, hclass, hrest.symm⟩

theorem recover_toFields {s : Settings k} (h : s.Stable) : recover k s.toFields = s := by
  unfold recover
  rw [parse?_toFields h]

theorem stable_blank (k : Kind) : (blank k).Stable :=
  ⟨Record.isStable_blank k.fields, nofun⟩

/-- What parses from proper fields is stable; fields of keys that the kind does not model may hold
anything. -/
theorem stable_of_parse? {m : Json.Fields} {s : Settings k}
    (hm : ∀ e ∈ m, e.1 ∈ k.keys → e.2.isProper = true) (h : parse? k m = some s) : s.Stable := by
  obtain ⟨hcells, -, hothers⟩ := parse?_eq_some_iff.1 h
  refine ⟨Record.isStable_of_read? k.fields ?_ hcells, ?_⟩
  · intro e he hk
    exact hm e he (mem_keys_iff.2 (Or.inl hk))
  · intro e he
    rw [hothers] at he
    simpa using (List.mem_filter.1 he).2

/-- Recovered settings are blank, or some of the fields parsed. -/
theorem recover_cases (k : Kind) (m : Json.Fields) :
    recover k m = blank k ∨ ∃ l, l ⊆ m ∧ parse? k l = some (recover k m) := by
  unfold recover
  split
  · next s hs => exact Or.inr ⟨m, List.Subset.refl m, hs⟩
  · split
    · next s hs => exact Or.inr ⟨_, List.filter_sublist.subset, hs⟩
    · exact Or.inl rfl

/-- Settings that were recovered from proper values are stable. -/
theorem stable_recover {m : Json.Fields} (hm : ∀ e ∈ m, e.1 ∈ k.keys → e.2.isProper = true) :
    (recover k m).Stable := by
  rcases recover_cases k m with h | ⟨l, hl, h⟩
  · rw [h]
    exact stable_blank k
  · exact stable_of_parse? (fun e he => hm e (hl he)) h

/-- The fields kept as they came have no key of the kind, wherever the settings were read. -/
theorem others_recover {m : Json.Fields} : ∀ e ∈ (recover k m).others, e.1 ∉ k.keys := by
  intro e he
  rcases recover_cases k m with h | ⟨l, -, h⟩
  · rw [h] at he
    nomatch he
  · rw [(parse?_eq_some_iff.1 h).2.2] at he
    simpa using (List.mem_filter.1 he).2

/-- The written fields are proper, those aside that are kept as they came. -/
theorem mem_others_or_isProper {s : Settings k} {e : String × Json} (he : e ∈ s.toFields) :
    e ∈ s.others ∨ e.2.isProper = true := by
  rcases List.mem_append.1 he with he | he
  · rcases List.mem_append.1 he with he | he
    · exact Or.inr (Record.isProper_of_mem_write k.fields s.cells he)
    · refine Or.inr (Record.isProper_of_mem_write [Field.className] (s.className, ()) ?_)
      exact List.mem_append_left _ he
  · exact Or.inl he

/-- The written fields of the modelled keys are proper when the others have no such key. -/
theorem isProper_of_mem_toFields {s : Settings k} (h : ∀ e ∈ s.others, e.1 ∉ k.keys) :
    ∀ e ∈ s.toFields, e.1 ∈ k.keys → e.2.isProper = true := by
  intro e he hk
  rcases mem_others_or_isProper he with he | hproper
  · exact absurd hk (h e he)
  · exact hproper

/-- Settings that come back from the wire are stable. -/
theorem stable_of_recover_toFields {s : Settings k} (h : recover k s.toFields = s) :
    s.Stable := by
  have hothers : ∀ e ∈ s.others, e.1 ∉ k.keys := by
    rw [← h]
    exact others_recover
  rw [← h]
  exact stable_recover (isProper_of_mem_toFields hothers)

end Settings

/-! ## Props of a node -/

namespace Props

/-- **Stable props**: stable settings of a kind, or a type that names no kind. -/
def Stable : Props → Prop
  | .known _ s => s.Stable
  | .unknown t _ => Choice.ofName? (α := Kind) t = none

/-- **The round trip** of props. -/
theorem recover_toFields {p : Props} (h : p.Stable) : recover p.typeName p.toFields = p := by
  cases p with
  | known k s =>
    show recover k.name s.toFields = known k s
    unfold recover
    rw [Choice.ofName?_name k]
    exact congrArg (known k) (Settings.recover_toFields h)
  | unknown t fs =>
    -- a type that names no kind stays what it is, with all its fields
    show recover t fs = unknown t fs
    unfold recover
    rw [h]

/-- Props that come back from their own fields are stable, the only ones that do. -/
theorem stable_of_recover_toFields {p : Props} (h : recover p.typeName p.toFields = p) :
    p.Stable := by
  cases p with
  | known k s =>
    have hs : recover k.name s.toFields = known k s := h
    unfold recover at hs
    rw [Choice.ofName?_name k] at hs
    exact Settings.stable_of_recover_toFields (by injection hs)
  | unknown t fs =>
    have ht : recover t fs = unknown t fs := h
    unfold recover at ht
    -- a type name that names a kind would come back as that kind
    split at ht
    · nomatch ht
    · next hn => exact hn

/-- What is recovered from proper fields is stable. -/
theorem stable_recover {t : String} {m : Json.Fields} (hm : Json.holdProper m = true) :
    (recover t m).Stable := by
  unfold recover
  split
  · exact Settings.stable_recover fun e he _ => Json.holdProper_iff.1 hm e he
  · next h => exact h

/-- The numbers of the palette are small, so they are finite. -/
theorem isStable_number {n : Nat} (h : n ≤ Json.Number.wordSize) :
    Format.isStable .number (Settings.number n) = true := by
  -- the number as a variable: to evaluate its rounding takes the kernel too deep
  obtain ⟨x, hx, hfinite⟩ : ∃ x : Binary64, Settings.number n = some x ∧ x.isFinite = true :=
    ⟨Binary64.ofNat n, rfl, Binary64.isFinite_ofNat h⟩
  rw [hx]
  exact hfinite

/-- What a component starts with is stable. -/
theorem stable_palette (kind : Option Kind) : (palette kind).Stable := by
  cases kind with
  | none => rfl
  | some k =>
    show (Settings.palette k).Stable
    refine ⟨?_, by cases k <;> nofun⟩
    -- only these three kinds start with a number
    cases k with
    | slider =>
      show (true && (true && (Format.isStable .number (Settings.number 50) && true))) = true
      rw [isStable_number (by decide)]
      rfl
    | progress =>
      show (Format.isStable .number (Settings.number 60) && true) = true
      rw [isStable_number (by decide)]
      rfl
    | spacer =>
      show (Format.isStable .number (Settings.number 4) && true) = true
      rw [isStable_number (by decide)]
      rfl
    | _ => rfl

/-! ## Changed props -/

/-- Changes write nothing but what they hold. -/
theorem mem_of_mem_changes (changes : Json.Fields) :
    ∀ {m : Json.Fields} {e : String × Json}, e ∈ changes.foldl change m → e ∈ m ∨ e ∈ changes := by
  induction changes with
  | nil => intro m e h; exact Or.inl h
  | cons d r ih =>
    intro m e h
    rcases ih h with h | h
    · unfold change at h
      -- a null takes the key out, anything else is written under it
      split at h
      · exact Or.inl (Entries.mem_swapErase h)
      · rcases Entries.mem_put h with h | h
        · exact Or.inl h
        · exact Or.inr (h ▸ List.mem_cons_self)
    · exact Or.inr (List.mem_cons_of_mem _ h)

section Merge

variable {p q : Props} {m partials : Json.Fields}

/-- **An object read as props like these**: strictly for a kind, and as it is for none. -/
def remake? (p : Props) (m : Json.Fields) : Option Props :=
  match p with
  | .known k _ => (Settings.parse? k m).map (.known k)
  | .unknown t _ => some (.unknown t m)

/-- **A merge** reads the changed object. -/
theorem merged?_eq_ok_iff :
    p.merged? partials = .ok q ↔ p.remake? (partials.foldl change p.toFields) = some q := by
  cases p with
  | known k s =>
    have hmerge : (known k s).merged? partials
        = parse? (some k) (partials.foldl change s.toFields) := rfl
    have hremake : (known k s).remake? (partials.foldl change s.toFields)
        = (Settings.parse? k (partials.foldl change s.toFields)).map (known k) := rfl
    rw [hmerge, toFields, hremake, parse?]
    cases Settings.parse? k (partials.foldl change s.toFields) <;> simp
  -- where there is no kind nothing has to parse
  | unknown t fs => simp [merged?, remake?, toFields]

/-- Props that are made anew are of the same kind. -/
theorem kind?_of_remake? (h : p.remake? m = some q) : q.kind? = p.kind? := by
  cases p with
  | known k s =>
    obtain ⟨t, -, rfl⟩ := Option.map_eq_some_iff.1 h
    rfl
  | unknown t fs =>
    obtain rfl := Option.some.inj h
    rfl

/-- Props that are made anew have the same type name. -/
theorem typeName_of_remake? (h : p.remake? m = some q) : q.typeName = p.typeName := by
  cases p with
  | known k s =>
    obtain ⟨t, -, rfl⟩ := Option.map_eq_some_iff.1 h
    rfl
  | unknown t fs =>
    obtain rfl := Option.some.inj h
    rfl

/-- Merging stays with the kind. -/
theorem kind?_of_merged? (h : p.merged? partials = .ok q) : q.kind? = p.kind? :=
  kind?_of_remake? (merged?_eq_ok_iff.1 h)

/-- So it stays with the name of the type. -/
theorem typeName_of_merged? (h : p.merged? partials = .ok q) : q.typeName = p.typeName :=
  typeName_of_remake? (merged?_eq_ok_iff.1 h)

/-- **Merging proper values** into stable props gives stable props. -/
theorem stable_of_merged? (hp : p.Stable) (hpartials : Json.holdProper partials = true)
    (h : p.merged? partials = .ok q) : q.Stable := by
  have hread := merged?_eq_ok_iff.1 h
  cases p with
  | known k s =>
    obtain ⟨t, ht, rfl⟩ := Option.map_eq_some_iff.1 hread
    refine Settings.stable_of_parse? (fun e he hk => ?_) ht
    -- a field of the merged object was there before or is one of the changes
    rcases mem_of_mem_changes partials he with he | he
    · exact Settings.isProper_of_mem_toFields (Settings.Stable.others hp) e he hk
    · exact Json.holdProper_iff.1 hpartials e he
  | unknown t fs =>
    obtain rfl := Option.some.inj hread
    exact hp

end Merge

end Props
end PageBuilder
