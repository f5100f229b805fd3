import PanelSketch.Proofs.Json.Record
import PanelSketch.Proofs.Project.Storing
import PanelSketch.Proofs.Text.Trimming

/-!
# Documents That Describe a Project

A project has more documents than the one that is written for it. The members of an
object may stand in any order and among others that mean nothing, a field that holds
its default may be missing, and the type of an element may be written in any case and
with blanks around it. `DescribedBy` collects all of them, one list of slots for each
kind of part.

A default counts as missing only where the part declares it: a screen without a colour
is not a screen whose colour is missing, since that one is black. The bindings of an
element have slots like its other fields, although they are read apart. That is also
why the numbers in an element have to be finite: a member may turn out to be a binding
until all are read, so none is passed over.

## Main definitions

* `Primitive.NamedBy`: The texts that name a primitive.
* `Element.slots`, `Screen.slots`, `Asset.slots`, `Project.slots`: What a document
  holds of a part.
* `Element.DescribedBy`, `Screen.DescribedBy`, `Asset.DescribedBy`,
  `Project.DescribedBy`: The documents of a part.

## Theorems

* `Primitive.parse?_of_namedBy`: A primitive is found by every text that names it.
* `Project.describedBy_toJson`: The document that is written describes the project.
-/

namespace PanelSketch

open Json (Slot Fills Value Writes keysOf)

/-! ### Types -/

namespace Primitive

/-- Whether a text names a primitive: it is the tag, in any case, with blanks around
    it. -/
def NamedBy (p : Primitive) (text : String) : Prop :=
  ∃ before name after : List Char,
    (∀ c ∈ before, Text.isBlank c = true) ∧ (∀ c ∈ after, Text.isBlank c = true)
      ∧ name.map Char.toLower = p.tag.toList.map Char.toLower
      ∧ text = String.ofList (before ++ (name ++ after))

theorem namedBy_tag (p : Primitive) : p.NamedBy p.tag :=
  ⟨[], p.tag.toList, [], by simp, by simp, rfl, by simp⟩

/-- Blanks are no letters, so no case is changed by writing them small. -/
theorem toLower_of_isBlank {c : Char} (h : Text.isBlank c = true) : c.toLower = c := by
  refine dif_neg ?_
  rintro ⟨hleast, hgreatest⟩
  have hcode : 65 ≤ c.toNat ∧ c.toNat ≤ 90 := ⟨hleast, hgreatest⟩
  simp only [Text.isBlank, Text.blankRanges, List.any_cons, List.any_nil, Bool.or_false,
    Bool.or_eq_true, Bool.and_eq_true, decide_eq_true_eq] at h
  omega

/-- The letters of a name are no blanks. -/
theorem isBlank_of_map_toLower {p : Primitive} {name : List Char}
    (h : name.map Char.toLower = p.tag.toList.map Char.toLower) :
    ∀ c ∈ name, Text.isBlank c = false := by
  have hall : (p.tag.toList.map Char.toLower).all (fun c => !Text.isBlank c) = true := by
    cases p <;> decide +kernel
  have htag : ∀ c ∈ p.tag.toList.map Char.toLower, Text.isBlank c = false := by
    simpa only [List.all_eq_true, Bool.not_eq_true'] using hall
  intro c hc
  rw [Bool.eq_false_iff]
  intro hblank
  have hmem : c ∈ p.tag.toList.map Char.toLower := by
    rw [← h, List.mem_map]
    exact ⟨c, hc, toLower_of_isBlank hblank⟩
  rw [htag c hmem] at hblank
  exact absurd hblank (by decide)

theorem fold_of_namedBy {p : Primitive} {text : String} (h : p.NamedBy text) :
    fold text = p.tag.toList.map Char.toLower := by
  obtain ⟨before, name, after, hbefore, hafter, hname, rfl⟩ := h
  rw [fold, String.toList_ofList,
    Text.trimChars_append hbefore hafter (isBlank_of_map_toLower hname), hname]

/-- A primitive is found by every text that names it. -/
theorem parse?_of_namedBy {p : Primitive} {text : String} (h : p.NamedBy text) :
    parse? text = some p := by
  rw [← parse?_tag p, parse?, parse?, fold_of_namedBy h, fold_of_namedBy p.namedBy_tag]

end Primitive

/-! ### Slots -/

/-- The slot of a field that holds a list. -/
def listSlot {α : Type} (key : String) (as default : List α) (describes : α → Value → Prop) :
    Slot :=
  ⟨key, as = default, fun v =>
    ∃ items, v = .list items ∧ List.Forall₂ (fun item a => describes a item) items as⟩

/-- The slots of bindings; a binding that an element does not have may also be null. -/
def Bindings.slots (b : Bindings) : List Slot :=
  [.of "xBind" b.x none nullableText, .of "yBind" b.y none nullableText,
   .of "wBind" b.w none nullableText, .of "hBind" b.h none nullableText,
   .of "colorBind" b.color none nullableText, .of "valueBind" b.value none nullableText]

/-- The slots of the fields that an element has of its own. -/
def Element.ownSlots (e : Element) : List Slot :=
  let blank : Element := {}
  [.of "id" e.id blank.id .text,
   ⟨"type", e.kind = blank.kind, fun v => ∃ tag, v = .text tag ∧ e.kind.NamedBy tag⟩,
   .of "name" e.name blank.name .text,
   .of "x" e.x blank.x fun n => integerValue n.toInt,
   .of "y" e.y blank.y fun n => integerValue n.toInt,
   .of "w" e.w blank.w fun n => integerValue n.toInt,
   .of "h" e.h blank.h fun n => integerValue n.toInt,
   .of "color" e.color blank.color .text,
   .of "asset" e.asset blank.asset nullableText,
   .of "targetScreenId" e.target blank.target nullableText]

/-- The slots of an element. -/
def Element.slots (e : Element) : List Slot :=
  e.ownSlots ++ e.bindings.slots

/-- The documents that describe an element. Unlike elsewhere, the values of strangers
    are read, so their numbers have to be finite. -/
def Element.DescribedBy (e : Element) (v : Value) : Prop :=
  ∃ members, v = .object members ∧ Fills e.slots members ∧ ∀ m ∈ members, m.2.Finite

/-- The slots of a screen. -/
def Screen.slots (s : Screen) : List Slot :=
  let blank : Screen := {}
  [.of "id" s.id blank.id .text,
   .of "name" s.name blank.name .text,
   .of "background" s.background blank.background nullableText,
   .of "backgroundAsset" s.backgroundAsset blank.backgroundAsset nullableText,
   .of "backgroundColor" s.backgroundColor blank.backgroundColor nullableText,
   listSlot "elements" s.elements blank.elements Element.DescribedBy]

/-- The documents that describe a screen. -/
def Screen.DescribedBy (s : Screen) (v : Value) : Prop :=
  ∃ members, v = .object members ∧ Fills s.slots members

/-- The slots of an asset. -/
def Asset.slots (a : Asset) : List Slot :=
  let blank : Asset := {}
  [.of "name" a.name blank.name .text,
   .of "dataUrl" a.dataUrl blank.dataUrl .text,
   .of "width" a.width blank.width fun n => integerValue n.toNat,
   .of "height" a.height blank.height fun n => integerValue n.toNat,
   .of "kind" a.kind blank.kind .text,
   .of "storageType" a.storage blank.storage fun s => .text s.tag]

/-- The documents that describe an asset. -/
def Asset.DescribedBy (a : Asset) (v : Value) : Prop :=
  ∃ members, v = .object members ∧ Fills a.slots members

/-- The slots of a project. -/
def Project.slots (p : Project) : List Slot :=
  let blank : Project := {}
  [listSlot "screens" p.screens blank.screens Screen.DescribedBy,
   .of "activeScreenId" p.active blank.active .text,
   .of "selectedElementId" p.selected blank.selected nullableText,
   listSlot "assets" p.assets blank.assets Asset.DescribedBy,
   .of "elementSeq" p.elementSeq blank.elementSeq fun n => integerValue n.toNat,
   .of "screenSeq" p.screenSeq blank.screenSeq fun n => integerValue n.toNat]

/-- The documents that describe a project. -/
def Project.DescribedBy (p : Project) (v : Value) : Prop :=
  ∃ members, v = .object members ∧ Fills p.slots members

/-! ### The document that is written -/

theorem writes_optionalMember (key : String) (s : Option String) {slots : List Slot}
    {members : List (String × Value)} (h : Writes slots members) :
    Writes (.of key s none nullableText :: slots) (optionalMember key s ++ members) := by
  rcases s with _ | s
  · exact .skip rfl h
  · exact .cons rfl h

theorem Bindings.writes_members (b : Bindings) : Writes b.slots b.members := by
  have hwrites := writes_optionalMember "xBind" b.x <| writes_optionalMember "yBind" b.y <|
    writes_optionalMember "wBind" b.w <| writes_optionalMember "hBind" b.h <|
    writes_optionalMember "colorBind" b.color <| writes_optionalMember "valueBind" b.value .nil
  rw [Bindings.members, Bindings.slots]
  simpa only [List.append_assoc, List.append_nil] using hwrites

theorem Element.nodup_keys (e : Element) : (keysOf e.slots).Nodup := by
  change (["id", "type", "name", "x", "y", "w", "h", "color", "asset", "targetScreenId", "xBind",
    "yBind", "wBind", "hBind", "colorBind", "valueBind"] : List String).Nodup
  decide

theorem Element.describedBy_toJson (e : Element) : e.DescribedBy e.toJson := by
  refine ⟨_, rfl, Writes.fills (Writes.append ?_ e.bindings.writes_members) e.nodup_keys,
    e.finite_members rfl⟩
  exact .cons rfl <| .cons ⟨_, rfl, e.kind.namedBy_tag⟩ <| .cons rfl <| .cons rfl <| .cons rfl <|
    .cons rfl <| .cons rfl <| .cons rfl <| .cons rfl <| .cons rfl .nil

/-- A list is described by the documents of its parts. -/
theorem fits_listSlot {α : Type} {key : String} {as default : List α}
    {describes : α → Value → Prop} {toJson : α → Value} (h : ∀ a, describes a (toJson a)) :
    (listSlot key as default describes).fits (.list (as.map toJson)) :=
  ⟨_, rfl, List.forall₂_map_left_iff.mpr (List.forall₂_same.mpr fun a _ => h a)⟩

theorem Screen.nodup_keys (s : Screen) : (keysOf s.slots).Nodup := by
  change (["id", "name", "background", "backgroundAsset", "backgroundColor", "elements"] :
    List String).Nodup
  decide

theorem Screen.describedBy_toJson (s : Screen) : s.DescribedBy s.toJson := by
  refine ⟨_, rfl, Writes.fills ?_ s.nodup_keys⟩
  exact .cons rfl <| .cons rfl <| .cons rfl <| .cons rfl <| .cons rfl <|
    .cons (fits_listSlot Element.describedBy_toJson) .nil

theorem Asset.nodup_keys (a : Asset) : (keysOf a.slots).Nodup := by
  change (["name", "dataUrl", "width", "height", "kind", "storageType"] : List String).Nodup
  decide

theorem Asset.describedBy_toJson (a : Asset) : a.DescribedBy a.toJson := by
  refine ⟨_, rfl, Writes.fills ?_ a.nodup_keys⟩
  exact .cons rfl <| .cons rfl <| .cons rfl <| .cons rfl <| .cons rfl <| .cons rfl .nil

theorem Project.nodup_keys (p : Project) : (keysOf p.slots).Nodup := by
  change (["screens", "activeScreenId", "selectedElementId", "assets", "elementSeq",
    "screenSeq"] : List String).Nodup
  decide

/-- The document that is written describes the project. -/
theorem Project.describedBy_toJson (p : Project) : p.DescribedBy p.toJson := by
  refine ⟨_, rfl, Writes.fills ?_ p.nodup_keys⟩
  exact .cons (fits_listSlot Screen.describedBy_toJson) <| .cons rfl <| .cons rfl <|
    .cons (fits_listSlot Asset.describedBy_toJson) <| .cons rfl <| .cons rfl .nil

end PanelSketch
