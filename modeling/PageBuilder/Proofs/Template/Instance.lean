/-
  Template instances can always be inserted.

  A template may repeat ids, and the supply may repeat suffixes or give ids that the tree has already.

  Program:        `Instance` — what a copy of a template for a tree has to be.
  Specification:  `insertable` — what a template is instantiated to is an instance of it, and under a
                  container of the tree it is inserted, with nothing that could refuse it; and a supply
                  that is long enough suffices for it.
  Crux:           the ids that are drawn avoid those of the tree, so of the three reasons to refuse an
                  insertion none is left.
-/
import PageBuilder.Proofs.Intent.Outcome
import PageBuilder.Proofs.Node.Copy

namespace PageBuilder

/-- A subtree that shares no id with the tree is inserted under a container. -/
theorem Intent.exists_insertUnder {tree node c : Node} {parent : String} {supply : Node.Supply}
    (hfind : tree.find? parent = some c) (hc : c.isContainer = true)
    (hfresh : ∀ id ∈ node.ids, id ∉ tree.ids) :
    ∃ t, tree.insertChild? parent node = some t ∧
      insertUnder tree parent node supply = .ok ⟨t, some node.id, supply⟩ := by
  have hduplicate : Node.duplicateId? tree node = none := Node.duplicateId?_eq_none_iff.2 hfresh
  rcases Node.editAt_cases parent tree with ⟨hnone, -⟩ | ⟨p, n, -, -, -, hsome, hplug⟩
  · rw [hfind] at hnone
    nomatch hnone
  · obtain rfl : c = n := Option.some.inj (hfind.symm.trans hsome)
    have hinsert : tree.insertChild? parent node
        = some (p.plug { c with children := some (c.childList ++ [node]) }) := by
      rw [insertChild?_of_plug node hplug, hduplicate, hc]
      rfl
    refine ⟨_, hinsert, ?_⟩
    rw [insertUnder_of_find? hfind, hc, hduplicate, hinsert]
    rfl

namespace Template

/-- **An instance** of a template for a tree. -/
structure Instance (t : Template) (tree : Node) (supply : Node.Supply) (m : Node) : Prop where
  /-- Shape, props and behavior are those of the template, node by node. -/
  shape : m.unnamed = t.schema.unnamed
  distinct : m.ids.Nodup
  fresh : ∀ id ∈ m.ids, id ∉ tree.ids
  /-- Every id is the lowercase type name of its node, a mark, and a suffix; the suffixes are taken
  from the supply, in its order. -/
  spelled : ∃ suffixes : List String, suffixes.Sublist supply ∧
    suffixes.length = t.schema.nodes.length ∧
    m.ids = List.zipWith (fun n s => Text.lowercase n.props.typeName ++ "_" ++ s)
      t.schema.nodes suffixes

variable {t : Template} {tree m : Node} {supply rest : Node.Supply}

/-- A copy of a template is an instance of it. -/
theorem instance_of_instantiate? (h : t.instantiate? tree supply = some (m, rest)) :
    t.Instance tree supply m := by
  obtain ⟨hdistinct, hfresh, -⟩ := Node.freshCopy?_spec h
  obtain ⟨hshape, after, hids⟩ := Node.freshCopy?_eq_some h
  obtain ⟨drawn, suffixes, hsupply, hsublist, hlength, hspelled⟩ := Node.suffixes_of_answers? hids
  refine ⟨hshape, hdistinct, hfresh, suffixes, ?_, hlength, hspelled⟩
  rw [hsupply]
  exact hsublist.trans (List.sublist_append_left drawn rest)

/-- **Template instances can always be inserted.**

Whatever a template, a tree and a supply: what the template is instantiated to is an instance of it,
and where the template is registered and a container of the tree is addressed, adding the template is
accepted and inserts that instance.  There is an instance if the supply has no suffix twice, and for
each node of the template as many as there are nodes in the tree and the template. -/
theorem insertable (t : Template) (tree : Node) (supply : Node.Supply) :
    (∀ m rest, t.instantiate? tree supply = some (m, rest) →
      t.Instance tree supply m ∧
      ∀ (registry : Registry) (parent id : String) (c : Node),
        Entries.get? registry id = some t → tree.find? parent = some c → c.isContainer = true →
        ∃ r, tree.insertChild? parent m = some r ∧
          Intent.apply registry supply tree (.addTemplate parent id) = .ok ⟨r, some m.id, rest⟩) ∧
    (supply.Nodup →
      t.schema.nodes.length * (tree.nodes.length + t.schema.nodes.length) ≤ supply.length →
      ∃ m rest, t.instantiate? tree supply = some (m, rest)) := by
  -- a copy is an instance, which can be inserted; and with enough suffixes there is a copy
  refine ⟨fun m rest h => ?_, fun hnodup hlength => ?_⟩
  · have hinstance : t.Instance tree supply m := instance_of_instantiate? h
    refine ⟨hinstance, fun registry parent id c hid hfind hc => ?_⟩
    obtain ⟨r, hinsert, hunder⟩ :=
      Intent.exists_insertUnder hfind hc hinstance.fresh
    refine ⟨r, hinsert, ?_⟩
    rw [Intent.apply, hid]
    dsimp only
    rw [h]
    exact hunder
  · have hcount : tree.ids.length = tree.nodes.length := List.length_map _
    exact Node.exists_freshCopy? hnodup (by rwa [hcount])

/-- A card in a card; both have one id. -/
def nestedCards : Template where
  id := "tpl_cards"
  name := "Cards"
  schema := ⟨"card_1", .blank (some .card), some [
    .make "card_1" (.blank (some .card)), .make "hint" (.unknown "Hologram" [("x", .null)])],
    { tooltip := some "Cards" }⟩

/-- A page with an id as it may be generated. -/
def cardPage : Node :=
  ⟨"page", .blank (some .container), some [.make "card_1" (.blank (some .card))], {}⟩

/-- The first suffix gives an id of the page, the third one an id that was just issued; both are passed
over.  Fifteen suffixes are enough for any page with two nodes. -/
theorem insertable_nestedCards :
    let supply := ["1", "2", "2", "3", "3", "4"]
    let copy : Node := ⟨"card_2", .blank (some .card), some [
      .make "card_3" (.blank (some .card)), .make "hologram_3" (.unknown "Hologram" [("x", .null)])],
      { tooltip := some "Cards" }⟩
    let letters := ["a", "b", "c", "d", "e", "f", "g", "h", "i", "j", "k", "l", "m", "n", "o"]
    nestedCards.instantiate? cardPage supply = some (copy, ["4"]) ∧
    nestedCards.Instance cardPage supply copy ∧
    cardPage.find? "page" = some cardPage ∧ cardPage.isContainer = true ∧
    (∃ r, cardPage.insertChild? "page" copy = some r ∧
      Intent.apply [("tpl_cards", nestedCards)] supply cardPage (.addTemplate "page" "tpl_cards")
        = .ok ⟨r, some "card_2", ["4"]⟩) ∧
    letters.Nodup ∧ ∃ m rest, nestedCards.instantiate? cardPage letters = some (m, rest) := by
  intro supply copy letters
  have hcopy : nestedCards.instantiate? cardPage supply = some (copy, ["4"]) := by decide +kernel
  have hfind : cardPage.find? "page" = some cardPage := by decide +kernel
  have hletters : letters.Nodup := by decide
  obtain ⟨hinstance, haccepted⟩ := (insertable nestedCards cardPage supply).1 copy ["4"] hcopy
  refine ⟨hcopy, hinstance, hfind, rfl, ?_, hletters, ?_⟩
  · exact haccepted [("tpl_cards", nestedCards)] "page" "tpl_cards" cardPage rfl hfind rfl
  · exact (insertable nestedCards cardPage letters).2 hletters (by decide +kernel)

end Template
end PageBuilder
