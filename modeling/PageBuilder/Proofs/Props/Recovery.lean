/-
  Props recovered field by field.

  Programs:       `Kind.fits` — whether a field parses alone; `Entries.only` — the entries of a key;
                  `Field.cellIn` — the cell of a field in an object, blank unless the field reads.
  Specification:  `Settings.recover_eq` — what is recovered of an object is what parses of the fields
                  that fit; `Settings.recover_keeps` — it has every modelled field that fits and every
                  other field; `Props.get?_recover_congr` — so what is recovered under a key depends
                  on nothing but the entries of that key.
  Crux:           every modelled field is looked up on its own, so an object parses just when every
                  field that is found there reads, and leaving out a field of one key changes what is
                  found under no other.
-/
import PageBuilder.Proofs.Props.Stable

namespace PageBuilder

/-! ## Entries of one key -/

namespace Entries

variable {κ α : Type} [DecidableEq κ]

/-- **The entries of a key**, in order. -/
def only (es : Entries κ α) (x : κ) : Entries κ α := es.filter fun e => e.1 = x

theorem get?_only (es : Entries κ α) (x : κ) : get? (only es x) x = get? es x := by
  induction es with
  | nil => rfl
  | cons e r ih => grind [only, get?]

/-- What is found among some of the entries depends on the entries of the key. -/
theorem get?_filter_congr {es fs : Entries κ α} {x : κ} (h : only es x = only fs x)
    (p : κ × α → Bool) : get? (es.filter p) x = get? (fs.filter p) x := by
  have honly : ∀ gs : Entries κ α, only (gs.filter p) x = (only gs x).filter p := by
    intro gs
    unfold only
    rw [List.filter_filter, List.filter_filter]
    exact List.filter_congr fun e _ => Bool.and_comm _ _
  rw [← get?_only, honly, h, ← honly, get?_only]

/-- What is found stays if it may stay. -/
theorem get?_filter_of_get? {es : Entries κ α} {x : κ} {p : κ × α → Bool}
    (h : ∀ v, get? es x = some v → p (x, v) = true) : get? (es.filter p) x = get? es x := by
  induction es with
  | nil => rfl
  | cons e r ih =>
    -- the first entry of the key passes the filter, so it is still the first
    obtain ⟨k, v⟩ := e
    rw [get?] at h ⊢
    split
    · next hk =>
      subst hk
      rw [List.filter_cons_of_pos (h v (if_pos rfl)), get?, if_pos rfl]
    · next hk =>
      rw [if_neg hk] at h
      rw [← ih h, List.filter_cons]
      split
      · rw [get?, if_neg hk]
      · rfl

/-- Where every key comes once, what is found among some of the entries is what was found before. -/
theorem get?_filter {es : Entries κ α} (h : (keys es).Nodup) (p : κ × α → Bool) (x : κ) :
    get? (es.filter p) x = (get? es x).filter fun v => p (x, v) := by
  induction es with
  | nil => rfl
  | cons e r ih =>
    obtain ⟨k, v⟩ := e
    obtain ⟨hk, hr⟩ : k ∉ keys r ∧ (keys r).Nodup := List.nodup_cons.1 h
    -- the key comes once, so if its entry goes there is none behind it
    by_cases hx : k = x
    · subst hx
      have hrest : get? (r.filter p) k = none := by rw [ih hr, get?_eq_none_iff.2 hk]; rfl
      rw [get?, if_pos rfl, Option.filter_some, List.filter_cons]
      split
      · rw [get?, if_pos rfl]
      · exact hrest
    · rw [get?, if_neg hx, ← ih hr, List.filter_cons]
      split
      · rw [get?, if_neg hx]
      · rfl

end Entries

/-! ## Records -/

namespace Record

/-- A field is read unless what is found does not read. -/
theorem isSome_readField?_iff {f : Field} {m : Json.Fields} :
    (readField? f m).isSome ↔ ∀ v, Entries.get? m f.key = some v → (f.format.read v).isSome := by
  unfold readField?
  cases hv : Entries.get? m f.key with
  | none => exact iff_of_true rfl nofun
  | some v => exact ⟨fun h w hw => Option.some.inj hw ▸ h, fun h => h v rfl⟩

/-- All fields read just when each of them does. -/
theorem isSome_read?_iff {fs : List Field} {m : Json.Fields} :
    (read? fs m).isSome ↔ ∀ f ∈ fs, (readField? f m).isSome := by
  induction fs with
  | nil => exact iff_of_true rfl nofun
  | cons f fs ih =>
    rw [List.forall_mem_cons, ← ih, read?]
    cases readField? f m <;> cases read? fs m <;> simp

/-- A field is read from what is found under its key. -/
theorem readField?_congr {f : Field} {l m : Json.Fields}
    (h : Entries.get? l f.key = Entries.get? m f.key) : readField? f l = readField? f m := by
  unfold readField?
  rw [h]

/-- What is read of an object is read under the keys of the fields. -/
theorem read?_congr {fs : List Field} {l m : Json.Fields}
    (h : ∀ f ∈ fs, Entries.get? l f.key = Entries.get? m f.key) : read? fs l = read? fs m := by
  induction fs with
  | nil => rfl
  | cons f fs ih =>
    obtain ⟨hf, hfs⟩ := List.forall_mem_cons.1 h
    rw [read?, read?, readField?_congr hf, ih hfs]

/-- A field is written under no other key. -/
theorem get?_writeField_of_ne {f : Field} {x : String} (h : f.key ≠ x) (c : f.format.Cell) :
    Entries.get? (writeField f c) x = none :=
  get?_eq_none fun e he => by rwa [key_of_mem_writeField he]

/-- What is written of a field depends on what it was read from. -/
theorem get?_writeField_congr {f : Field} {x : String} {l m : Json.Fields} {c d : f.format.Cell}
    (hx : Entries.get? l x = Entries.get? m x) (hc : readField? f l = some c)
    (hd : readField? f m = some d) :
    Entries.get? (writeField f c) x = Entries.get? (writeField f d) x := by
  by_cases hkey : f.key = x
  · subst hkey
    rw [Option.some.inj (hc.symm.trans ((readField?_congr hx).trans hd))]
  · rw [get?_writeField_of_ne hkey, get?_writeField_of_ne hkey]

/-- So it is for a record. -/
theorem get?_write_congr {x : String} {l m : Json.Fields}
    (hx : Entries.get? l x = Entries.get? m x) : ∀ (fs : List Field) {r s : Record fs},
    read? fs l = some r → read? fs m = some s →
    Entries.get? (write fs r) x = Entries.get? (write fs s) x
  | [], _, _, _, _ => rfl
  | f :: fs, (c, r), (d, s), hr, hs => by
    simp only [read?, Option.bind_eq_bind, Option.bind_eq_some_iff] at hr hs
    obtain ⟨c', hc, r', hr, h⟩ := hr
    obtain ⟨rfl, rfl⟩ := Prod.mk.inj (Option.some.inj h)
    obtain ⟨d', hd, s', hs, h⟩ := hs
    obtain ⟨rfl, rfl⟩ := Prod.mk.inj (Option.some.inj h)
    rw [write, write, Entries.get?_append, Entries.get?_append, get?_writeField_congr hx hc hd,
      get?_write_congr hx fs hr hs]

/-- **The cells of a record**, each with its field. -/
def toList : (fs : List Field) → Record fs → List (Σ f : Field, f.format.Cell)
  | [], _ => []
  | f :: fs, (c, r) => ⟨f, c⟩ :: toList fs r

end Record

/-- **The cell of a field** in an object: blank if the field is not there, or does not read. -/
def Field.cellIn (f : Field) (m : Json.Fields) : f.format.Cell :=
  ((Entries.get? m f.key).bind f.format.read).getD f.format.blank

namespace Record

/-- A cell that reads is the cell in the object. -/
theorem cellIn_of_readField? {f : Field} {m : Json.Fields} {c : f.format.Cell}
    (h : readField? f m = some c) : f.cellIn m = c := by
  unfold readField? at h
  unfold Field.cellIn
  split at h
  · next hnone =>
    rw [hnone]
    exact Option.some.inj h
  · next v hv =>
    rw [hv, Option.bind_some, h]
    rfl

/-- A record that is read has the cells of its fields. -/
theorem toList_of_read? : ∀ (fs : List Field) {m : Json.Fields} {r : Record fs},
    read? fs m = some r → toList fs r = fs.map fun f => ⟨f, f.cellIn m⟩
  | [], _, _, _ => rfl
  | f :: fs, m, (c, r), h => by
    simp only [read?, Option.bind_eq_bind, Option.bind_eq_some_iff] at h
    obtain ⟨c', hc, r', hr, h⟩ := h
    obtain ⟨rfl, rfl⟩ := Prod.mk.inj (Option.some.inj h)
    rw [toList, toList_of_read? fs hr, List.map_cons, cellIn_of_readField? hc]

end Record

/-! ## Settings -/

/-- The fields a kind models, the class name among them. -/
def Kind.modelled (k : Kind) : List Field := k.fields ++ [Field.className]

/-- No kind models two fields of one key. -/
theorem Kind.eq_of_key (k : Kind) : ∀ f ∈ k.modelled, ∀ g ∈ k.modelled, g.key = f.key → g = f := by
  cases k <;> decide

/-- **Whether a field parses alone.** -/
def Kind.fits (k : Kind) (e : String × Json) : Bool := (Settings.parse? k [e]).isSome

namespace Settings

variable {k : Kind}

theorem mem_keys_iff_modelled {x : String} : x ∈ k.keys ↔ ∃ f ∈ k.modelled, f.key = x := by
  unfold Kind.keys Kind.modelled
  rw [← List.map_singleton, ← List.map_append, List.mem_map]

/-- An object parses just when every modelled field that is found there reads. -/
theorem isSome_parse?_iff {m : Json.Fields} :
    (parse? k m).isSome ↔ ∀ f ∈ k.modelled, (Record.readField? f m).isSome := by
  unfold Kind.modelled parse?
  rw [List.forall_mem_append, List.forall_mem_singleton, ← Record.isSome_read?_iff]
  cases Record.read? k.fields m <;> cases Record.readField? Field.className m <;> simp

/-- A field fits unless its key is modelled and its value does not read. -/
theorem fits_iff {e : String × Json} :
    k.fits e = true ↔ ∀ f ∈ k.modelled, f.key = e.1 → (f.format.read e.2).isSome := by
  obtain ⟨x, v⟩ := e
  unfold Kind.fits
  rw [isSome_parse?_iff]
  refine forall₂_congr fun f _ => ?_
  rw [Record.isSome_readField?_iff, Entries.get?, Entries.get?_nil]
  dsimp only
  -- an object of one field has nothing under the key of any other
  constructor
  · intro h hf
    exact h v (if_pos hf.symm)
  · intro h w hw
    split at hw
    · next hx => exact Option.some.inj hw ▸ h hx.symm
    · cases hw

/-- A field that is not modelled fits, whatever it holds. -/
theorem others_filter (k : Kind) (m : Json.Fields) :
    (m.filter k.fits).filter (fun e => !k.keys.contains e.1)
      = m.filter fun e => !k.keys.contains e.1 := by
  rw [List.filter_filter]
  refine List.filter_congr fun e _ => ?_
  cases hkey : k.keys.contains e.1 with
  | true => rfl
  | false =>
    refine fits_iff.2 fun f hf hfe => ?_
    have : e.1 ∈ k.keys := mem_keys_iff_modelled.2 ⟨f, hf, hfe⟩
    rw [List.contains_iff_mem.2 this] at hkey
    cases hkey

/-- The fields that fit parse together. -/
theorem isSome_parse?_filter (k : Kind) (m : Json.Fields) : (parse? k (m.filter k.fits)).isSome := by
  rw [isSome_parse?_iff]
  intro f hf
  rw [Record.isSome_readField?_iff]
  intro v hv
  exact fits_iff.1 (List.mem_filter.1 (Entries.mem_of_get? hv)).2 f hf rfl

/-- Where all fields that are found read, those that fit parse to the same settings. -/
theorem parse?_filter {m : Json.Fields} {s : Settings k} (h : parse? k m = some s) :
    parse? k (m.filter k.fits) = some s := by
  have hread : ∀ f ∈ k.modelled, (Record.readField? f m).isSome :=
    isSome_parse?_iff.1 (Option.isSome_of_eq_some h)
  have hfound : ∀ f ∈ k.modelled,
      Entries.get? (m.filter k.fits) f.key = Entries.get? m f.key := by
    intro f _
    refine Entries.get?_filter_of_get? fun v hv => fits_iff.2 fun g hg hkey => ?_
    exact Record.isSome_readField?_iff.1 (hread g hg) v (by rw [hkey]; exact hv)
  obtain ⟨hcells, hclass, hrest⟩ := parse?_eq_some_iff.1 h
  refine parse?_eq_some_iff.2 ⟨?_, ?_, hrest.trans (others_filter k m).symm⟩
  · rw [Record.read?_congr fun f hf => hfound f (List.mem_append_left _ hf), hcells]
  · rw [Record.readField?_congr (hfound _ (List.mem_append_right _ (List.mem_singleton_self _))),
      hclass]

/-- **What is recovered** of an object is what parses of the fields that fit. -/
theorem recover_eq (k : Kind) (m : Json.Fields) :
    parse? k (m.filter k.fits) = some (recover k m) := by
  unfold recover
  split
  · next h => exact parse?_filter h
  · obtain ⟨s, hs⟩ := Option.isSome_iff_exists.1 (isSome_parse?_filter k m)
    have hfits : (m.filter fun e => (parse? k [e]).isSome) = m.filter k.fits := rfl
    rw [hfits, hs]

/-- Where every key comes once, an object parses just when every field of it parses alone. -/
theorem isSome_parse?_iff_fits {m : Json.Fields} (hm : (Entries.keys m).Nodup) :
    (parse? k m).isSome ↔ ∀ e ∈ m, k.fits e = true := by
  rw [isSome_parse?_iff]
  constructor
  · intro h e he
    refine fits_iff.2 fun f hf hfe => ?_
    have hfound : Entries.get? m f.key = some e.2 := hfe ▸ Entries.get?_of_mem hm he
    exact Record.isSome_readField?_iff.1 (h f hf) e.2 hfound
  · intro h f hf
    rw [Record.isSome_readField?_iff]
    intro v hv
    exact fits_iff.1 (h _ (Entries.mem_of_get? hv)) f hf rfl

/-- Leaving out what does not fit changes no cell. -/
theorem cellIn_filter {m : Json.Fields} (hm : (Entries.keys m).Nodup) {f : Field}
    (hf : f ∈ k.modelled) : f.cellIn (m.filter k.fits) = f.cellIn m := by
  -- no two fields of a kind have one key, so the entry has to fit this field alone
  have hfits : ∀ v, k.fits (f.key, v) = (f.format.read v).isSome := by
    intro v
    rw [Bool.eq_iff_iff, fits_iff]
    constructor
    · intro h
      exact h f hf rfl
    · intro h g hg hkey
      rwa [k.eq_of_key f hf g hg hkey]
  unfold Field.cellIn
  rw [Entries.get?_filter hm]
  cases Entries.get? m f.key with
  | none => rfl
  | some v =>
    rw [Option.filter_some, hfits]
    cases hread : f.format.read v <;> simp [hread]

/-- **The cells of settings**, each with its field, in wire order. -/
def cellList (s : Settings k) : List (Σ f : Field, f.format.Cell) :=
  Record.toList k.fields s.cells ++ [⟨Field.className, s.className⟩]

/-- Settings that parse have the cells of the fields that their kind models. -/
theorem cellList_of_parse? {m : Json.Fields} {s : Settings k} (h : parse? k m = some s) :
    s.cellList = k.modelled.map fun f => ⟨f, f.cellIn m⟩ := by
  obtain ⟨hcells, hclass, -⟩ := parse?_eq_some_iff.1 h
  unfold cellList Kind.modelled
  rw [Record.toList_of_read? k.fields hcells, List.map_append, List.map_singleton,
    Record.cellIn_of_readField? hclass]

/-- **Lenient reading keeps all that fits.**

An object parses if and only if each of its fields parses alone.  What is recovered of it is what
parses of the object less exactly the fields that do not, so that reading never falls back to blank
settings; the fields that the kind does not model are all kept, in their order, and every modelled
field has the cell that its value reads to, or the blank one where it does not read. -/
theorem recover_keeps (k : Kind) {m : Json.Fields} (hm : (Entries.keys m).Nodup) :
    ((parse? k m).isSome ↔ ∀ e ∈ m, (parse? k [e]).isSome) ∧
    parse? k (m.filter fun e => (parse? k [e]).isSome) = some (recover k m) ∧
    (recover k m).others = m.filter (fun e => !k.keys.contains e.1) ∧
    (recover k m).cellList = k.modelled.map fun f => ⟨f, f.cellIn m⟩ := by
  have hparse : parse? k (m.filter k.fits) = some (recover k m) := recover_eq k m
  refine ⟨isSome_parse?_iff_fits hm, hparse, ?_, ?_⟩
  · rw [(parse?_eq_some_iff.1 hparse).2.2, others_filter]
  · rw [cellList_of_parse? hparse]
    refine List.map_congr_left fun f hf => ?_
    rw [cellIn_filter hm hf]

/-- A list of a team: its rows and its class name are spoiled, and two fields are not modelled. -/
def teamList : Json.Fields :=
  [("title", .string "Team"), ("note", .null), ("items", .array [.bool true]),
    ("sortKey", .object [("value", .null)]), ("className", .number (.whole 3)),
    ("data-x", .bool true)]

/-- The spoiled fields alone are left out. -/
theorem recover_keeps_teamList :
    (Entries.keys teamList).Nodup ∧ parse? .dataList teamList = none ∧
    parse? .dataList (teamList.filter fun e => (parse? .dataList [e]).isSome)
      = some (recover .dataList teamList) ∧
    (recover .dataList teamList).toFields = [("title", .string "Team"), ("items", .array []),
      ("sortKey", .string "value"), ("note", .null), ("data-x", .bool true)] := by
  have hkeys : (Entries.keys teamList).Nodup := by decide
  exact ⟨hkeys, by decide +kernel, (recover_keeps .dataList hkeys).2.1, by decide +kernel⟩

/-- The fields of other keys are kept as they are found. -/
theorem get?_others {m : Json.Fields} {s : Settings k} (h : parse? k m = some s) (x : String) :
    Entries.get? s.others x = if x ∈ k.keys then none else Entries.get? m x := by
  rw [(parse?_eq_some_iff.1 h).2.2]
  split
  · next hmem =>
    refine Record.get?_eq_none fun e he hex => ?_
    rw [← hex] at hmem
    simpa [hmem] using (List.mem_filter.1 he).2
  · next hmem => exact Entries.get?_filter_of_get? fun v _ => by simpa using hmem

/-- What is written under a key depends on what was found under it. -/
theorem get?_toFields_congr {x : String} {l m : Json.Fields} {s t : Settings k}
    (hx : Entries.get? l x = Entries.get? m x) (hs : parse? k l = some s)
    (ht : parse? k m = some t) : Entries.get? s.toFields x = Entries.get? t.toFields x := by
  obtain ⟨hcells, hclass, -⟩ := parse?_eq_some_iff.1 hs
  obtain ⟨hcells', hclass', -⟩ := parse?_eq_some_iff.1 ht
  unfold toFields
  rw [Entries.get?_append, Entries.get?_append, Entries.get?_append, Entries.get?_append,
    get?_others hs, get?_others ht, hx, Record.get?_write_congr hx k.fields hcells hcells',
    Record.get?_writeField_congr hx hclass hclass']

end Settings

namespace Props

/-- **Recovery is local**: what is recovered under a key depends on the entries of that key. -/
theorem get?_recover_congr (t : String) {x : String} {l m : Json.Fields}
    (h : Entries.only l x = Entries.only m x) :
    Entries.get? (recover t l).toFields x = Entries.get? (recover t m).toFields x := by
  unfold recover
  split
  · next k _ =>
    exact Settings.get?_toFields_congr (Entries.get?_filter_congr h k.fits)
      (Settings.recover_eq k l) (Settings.recover_eq k m)
  · show Entries.get? l x = Entries.get? m x
    rw [← Entries.get?_only, h, Entries.get?_only]

/-- The type says what kind of props is recovered. -/
theorem kind?_recover (t : String) (m : Json.Fields) :
    (recover t m).kind? = Choice.ofName? t := by
  unfold recover
  split
  · next h => rw [h]; rfl
  · next h => rw [h]; rfl

theorem typeName_recover (t : String) (m : Json.Fields) : (recover t m).typeName = t := by
  unfold recover
  split
  · next h => exact Choice.name_of_ofName? h
  · rfl

end Props
end PageBuilder
