import PanelSketch.Editor.Patch
import PanelSketch.Proofs.Text.ByteOrder

/-!
# The Last Word on a Field

A patch is applied one key after the other, and each key changes one field or none. What
comes of it can be said field by field. Of the keys that name a field, up to the case of
their letters, only those count whose value is of use for the field, and of these the one
that is greatest as a sequence of bytes has the last word. Without any such key, the field
keeps what it had.

This is the meaning of a patch, and it does not mention the order in which keys are
visited. `Element.patch_eq` and `ScreenInfo.patch_eq` say that applying the keys in turn
comes to the same: one induction over the members settles all fields at once, because no
key changes a field that it does not name.

## Main definitions

* `Names`: A key names a field.
* `Patch.LastOf`: The last member of a patch with a property.
* `Patch.Settles`: What a patch makes of a field.
* `lastWord?`: The last word that members in order have on a field.

## Theorems

* `Element.patch_eq`, `ScreenInfo.patch_eq`: A patch changes every field on its own.
* `Element.patch_idem`: A patch that has been applied changes nothing more.
* `Patch.lastOf_of_lastWord?`: The last word comes from the greatest key.
* `Patch.eq_none_of_lastWord?`: Without a last word, nothing is said about the field.
* `Patch.settles`: A field is settled by its last word.
-/

namespace PanelSketch

variable {α : Type}

/-- A key names a field when the two are equal up to the case of their letters. -/
def Names (key field : String) : Prop :=
  key.toLower = field.toLower

namespace Patch

/-- The last member of a patch with a property: no key with it has greater bytes. -/
structure LastOf (patch : Patch) (P : String → Json.Value → Prop) (key : String)
    (v : Json.Value) : Prop where
  mem : patch[key]? = some v
  holds : P key v
  greatest : ∀ key' v', patch[key']? = some v' → P key' v' →
    key'.toUTF8.toList ≤ key.toUTF8.toList

/-- What a patch makes of a field, when `Gives` says what a value gives it: that of the
    last key that names it and gives something, or what it was. -/
inductive Settles (patch : Patch) (field : String) (Gives : Json.Value → α → Prop) (old : α) :
    α → Prop
  | byKey {key : String} {v : Json.Value} {new : α}
      (hlast : patch.LastOf (fun key v => Names key field ∧ ∃ a, Gives v a) key v)
      (hgives : Gives v new) : Settles patch field Gives old new
  | kept (hnone : ∀ key v, patch[key]? = some v → Names key field → ∀ a, ¬Gives v a) :
      Settles patch field Gives old old

end Patch

/-! ### Members in order -/

/-- What a member says about a field of a name in small letters. -/
def wordOn (field : String) (use : Json.Value → Option α) (member : String × Json.Value) :
    Option α :=
  if member.1.toLower = field then use member.2 else none

/-- The last word that members in order have on a field. -/
def lastWord? (field : String) (use : Json.Value → Option α)
    (members : List (String × Json.Value)) : Option α :=
  members.reverse.findSome? (wordOn field use)

theorem lastWord?_cons (field : String) (use : Json.Value → Option α)
    (member : String × Json.Value) (members : List (String × Json.Value)) :
    lastWord? field use (member :: members)
      = (lastWord? field use members).or (wordOn field use member) := by
  rw [lastWord?, List.reverse_cons, List.findSome?_append, lastWord?, List.findSome?_cons,
    List.findSome?_nil]
  rcases wordOn field use member with _ | a
  · rfl
  · rfl

/-- An earlier member has its say only if no later one has. -/
theorem getD_lastWord?_cons (field : String) (use : Json.Value → Option α)
    (member : String × Json.Value) (members : List (String × Json.Value)) (old : α) :
    (lastWord? field use (member :: members)).getD old
      = (lastWord? field use members).getD ((wordOn field use member).getD old) := by
  rw [lastWord?_cons, Option.getD_or]

namespace Element

/-- A member changes the field that it names and no other. -/
theorem patchField_eq (e : Element) (key : String) (v : Json.Value) : e.patchField key v =
    { e with
      name := (wordOn "name" patchLabel (key, v)).getD e.name
      color := (wordOn "color" patchLabel (key, v)).getD e.color
      asset := (wordOn "asset" (some ∘ patchLabel) (key, v)).getD e.asset
      target := (wordOn "targetscreenid" (some ∘ patchText) (key, v)).getD e.target
      x := (wordOn "x" patchPixels (key, v)).getD e.x
      y := (wordOn "y" patchPixels (key, v)).getD e.y
      w := (wordOn "w" patchSize (key, v)).getD e.w
      h := (wordOn "h" patchSize (key, v)).getD e.h } := by
  unfold patchField
  -- The key has one small form, so it names one of the fields or none.
  split <;> simp_all [wordOn]

/-- A patch gives every field the last word on it. -/
theorem patch_eq (p : Patch) (e : Element) : e.patch p =
    { e with
      name := (lastWord? "name" patchLabel p.toList).getD e.name
      color := (lastWord? "color" patchLabel p.toList).getD e.color
      asset := (lastWord? "asset" (some ∘ patchLabel) p.toList).getD e.asset
      target := (lastWord? "targetscreenid" (some ∘ patchText) p.toList).getD e.target
      x := (lastWord? "x" patchPixels p.toList).getD e.x
      y := (lastWord? "y" patchPixels p.toList).getD e.y
      w := (lastWord? "w" patchSize p.toList).getD e.w
      h := (lastWord? "h" patchSize p.toList).getD e.h } := by
  rw [patch]
  generalize p.toList = members
  induction members generalizing e with
  | nil => rfl
  | cons member members ih =>
      rcases member with ⟨key, v⟩
      refine (ih (e.patchField key v)).trans ?_
      -- The later members find what this one has left of each field.
      rw [patchField_eq]
      simp only [getD_lastWord?_cons]

/-- A patch that has been applied changes nothing more. -/
theorem patch_idem (p : Patch) (e : Element) : (e.patch p).patch p = e.patch p := by
  rw [patch_eq p (e.patch p), patch_eq p e]
  simp only [← Option.getD_or, Option.or_self]

end Element

namespace ScreenInfo

theorem patchField_eq (s : ScreenInfo) (key : String) (v : Json.Value) : s.patchField key v =
    { s with
      name := (wordOn "name" patchLabel (key, v)).getD s.name
      backgroundColor :=
        (wordOn "backgroundcolor" (some ∘ patchText) (key, v)).getD s.backgroundColor } := by
  unfold patchField
  split <;> simp_all [wordOn]

theorem patch_eq (p : Patch) (s : ScreenInfo) : s.patch p =
    { s with
      name := (lastWord? "name" patchLabel p.toList).getD s.name
      backgroundColor :=
        (lastWord? "backgroundcolor" (some ∘ patchText) p.toList).getD s.backgroundColor } := by
  rw [patch]
  generalize p.toList = members
  induction members generalizing s with
  | nil => rfl
  | cons member members ih =>
      rcases member with ⟨key, v⟩
      refine (ih (s.patchField key v)).trans ?_
      rw [patchField_eq]
      simp only [getD_lastWord?_cons]

end ScreenInfo

/-! ### The greatest key -/

namespace Patch

variable {patch : Patch} {small : String} {use : Json.Value → Option α} {a : α}

/-- There is at most one last member with a property. -/
theorem LastOf.unique {P : String → Json.Value → Prop} {key key' : String} {v v' : Json.Value}
    (h : patch.LastOf P key v) (h' : patch.LastOf P key' v') : v = v' := by
  have hle := Text.utf8_le_iff.mp (h'.greatest key v h.mem h.holds)
  have hge := Text.utf8_le_iff.mp (h.greatest key' v' h'.mem h'.holds)
  have hmem := h.mem
  rw [String.le_antisymm hle hge, h'.mem] at hmem
  exact (Option.some.inj hmem).symm

/-- The last word comes from the last member that has one, and members are in the order of
    their bytes. -/
theorem lastOf_of_lastWord? (h : lastWord? small use patch.toList = some a) :
    ∃ key v, patch.LastOf (fun key v => key.toLower = small ∧ (use v).isSome = true) key v
      ∧ use v = some a := by
  rcases List.findSome?_eq_some_iff.mp h with ⟨later, ⟨key, v⟩, earlier, hsplit, hword, hlater⟩
  have hmem (key' : String) (v' : Json.Value) :
      patch[key']? = some v' ↔ (key', v') ∈ later ++ (key, v) :: earlier := by
    rw [← hsplit, List.mem_reverse, Std.ExtTreeMap.mem_toList_iff_getElem?_eq_some]
  -- Read from the end, members come in the opposite order.
  have hordered : (later ++ (key, v) :: earlier).Pairwise fun m m' => m'.1 < m.1 := by
    rw [← hsplit, List.pairwise_reverse]
    have hcompared : patch.toList.Pairwise fun m m' => compare m.1 m'.1 = .lt :=
      Std.ExtTreeMap.ordered_keys_toList
    exact hcompared.imp compareOfLessAndEq_eq_lt.mp
  unfold wordOn at hword
  split at hword
  case isFalse => exact absurd hword (by simp only [reduceCtorEq, not_false_eq_true])
  case isTrue hkey =>
    refine ⟨key, v, ⟨(hmem key v).mpr (List.mem_append_right _ List.mem_cons_self),
      ⟨hkey, by rw [hword]; rfl⟩, fun key' v' hv' hholds => ?_⟩, hword⟩
    rw [Text.utf8_le_iff]
    rcases List.mem_append.mp ((hmem key' v').mp hv') with hmember | hmember
    · -- A later member had no say, although this one would have had one.
      have hsilent := hlater (key', v') hmember
      rw [wordOn, if_pos hholds.1] at hsilent
      rw [hsilent] at hholds
      exact absurd hholds.2 Bool.false_ne_true
    · rcases List.mem_cons.mp hmember with heq | hearlier
      · have hkeys : key' = key := (Prod.mk.inj heq).1
        exact hkeys ▸ String.le_refl key'
      · have hlt := List.rel_of_pairwise_cons (List.pairwise_append.mp hordered).2.1 hearlier
        exact Std.le_of_lt hlt

/-- Without a last word, no member that names the field is of use for it. -/
theorem eq_none_of_lastWord? (h : lastWord? small use patch.toList = none) {key : String}
    {v : Json.Value} (hv : patch[key]? = some v) (hkey : key.toLower = small) :
    use v = none := by
  have hmem : (key, v) ∈ patch.toList.reverse := by
    rwa [List.mem_reverse, Std.ExtTreeMap.mem_toList_iff_getElem?_eq_some]
  have hsilent := List.findSome?_eq_none_iff.mp h (key, v) hmem
  rwa [wordOn, if_pos hkey] at hsilent

/-- A field is settled by its last word. -/
theorem settles {field : String} (patch : Patch) (hfield : field.toLower = small)
    {Gives : Json.Value → α → Prop} (hgives : ∀ v a, use v = some a ↔ Gives v a) (old : α) :
    patch.Settles field Gives old ((lastWord? small use patch.toList).getD old) := by
  have hnames (key : String) : Names key field ↔ key.toLower = small := by
    rw [Names, hfield]
  have huse (v : Json.Value) : (∃ a, Gives v a) ↔ (use v).isSome = true := by
    rw [Option.isSome_iff_exists]
    exact exists_congr fun a => (hgives v a).symm
  rcases hword : lastWord? small use patch.toList with _ | a
  · exact .kept fun key v hv hkey a hgiven => by
      have hnone := eq_none_of_lastWord? hword hv ((hnames key).mp hkey)
      rw [(hgives v a).mpr hgiven] at hnone
      exact Option.some_ne_none a hnone
  · rcases lastOf_of_lastWord? hword with ⟨key, v, hlast, hv⟩
    have hgiven : patch.LastOf (fun key v => Names key field ∧ ∃ a, Gives v a) key v := by
      simp only [hnames, huse]
      exact hlast
    exact .byKey hgiven ((hgives v a).mp hv)

end Patch

end PanelSketch
