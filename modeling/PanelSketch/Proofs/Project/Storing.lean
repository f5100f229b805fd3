import PanelSketch.Project.File
import PanelSketch.Proofs.Json.Printing

/-!
# Documents That Are Written

The documents that are written for projects hold nothing that a file could not: every
number is an integer of at most 64 bits, because the fields of a project have 32, and
lists and objects are nested as deep as an element in a screen in a project, whatever
the project holds.

## Main definitions

* `Storable`: A document that a file can hold within a number of levels.

## Theorems

* `Element.finite_members`: An element is written without infinities.
* `Project.storable_toJson`: Every project can be stored.
-/

namespace PanelSketch

open Json (Value)

/-- Whether a file can hold a document: its numbers are integers of 64 bits, and it has
    at most so many levels. -/
def Storable (levels : Nat) (v : Value) : Prop :=
  v.Whole ∧ v.depth ≤ levels

variable {levels : Nat}

theorem storable_text (s : String) : Storable levels (.text s) :=
  ⟨.text s, Nat.zero_le _⟩

theorem storable_nullableText (s : Option String) : Storable levels (nullableText s) := by
  rcases s with _ | s
  · exact ⟨.null, Nat.zero_le _⟩
  · exact storable_text s

theorem storable_pixels (n : Int32) : Storable levels (integerValue n.toInt) := by
  have hleast := n.le_toInt
  have hgreatest := n.toInt_lt
  refine ⟨.number ?_ ?_, Nat.zero_le _⟩
  · simp only [Json.negativeLimit, UInt64.size]
    omega
  · simp only [Json.significandLimit, UInt64.size]
    omega

theorem storable_word (n : UInt32) : Storable levels (integerValue n.toNat) := by
  have hlt := n.toNat_lt
  refine ⟨.number ?_ ?_, Nat.zero_le _⟩
  · omega
  · simp only [Json.significandLimit, UInt64.size]
    omega

theorem storable_list {α : Type} {toJson : α → Value} (h : ∀ a, Storable levels (toJson a))
    (as : List α) : Storable (levels + 1) (.list (as.map toJson)) := by
  refine ⟨.list (List.forall_mem_map.mpr fun a _ => (h a).1), ?_⟩
  exact Json.depth_list_le.mpr (List.forall_mem_map.mpr fun a _ => (h a).2)

theorem storable_object {members : List (String × Value)}
    (h : ∀ m ∈ members, Storable levels m.2) : Storable (levels + 1) (.object members) :=
  ⟨.object fun m hm => (h m hm).1, Json.depth_object_le.mpr fun m hm => (h m hm).2⟩

theorem Storable.mono {levels' : Nat} {v : Value} (h : Storable levels v)
    (hle : levels ≤ levels') : Storable levels' v :=
  ⟨h.1, Nat.le_trans h.2 hle⟩

theorem storable_optionalMember (key : String) (s : Option String) :
    ∀ m ∈ optionalMember key s, Storable levels m.2 := by
  rcases s with _ | s
  · exact fun m hm => absurd hm List.not_mem_nil
  · exact List.forall_mem_singleton.mpr (storable_text s)

theorem Bindings.storable_members (b : Bindings) : ∀ m ∈ b.members, Storable levels m.2 := by
  simp only [members, List.forall_mem_append]
  exact ⟨⟨⟨⟨⟨storable_optionalMember _ _, storable_optionalMember _ _⟩,
    storable_optionalMember _ _⟩, storable_optionalMember _ _⟩, storable_optionalMember _ _⟩,
    storable_optionalMember _ _⟩

theorem Element.storable_toJson (e : Element) : Storable 1 e.toJson := by
  refine storable_object (List.forall_mem_append.mpr ⟨?_, e.bindings.storable_members⟩)
  simp only [List.forall_mem_cons, List.not_mem_nil, false_imp_iff, implies_true, and_true]
  exact ⟨storable_text _, storable_text _, storable_text _, storable_pixels _, storable_pixels _,
    storable_pixels _, storable_pixels _, storable_text _, storable_nullableText _,
    storable_nullableText _⟩

/-- An element is written without infinities. -/
theorem Element.finite_members (e : Element) {members : List (String × Value)}
    (h : e.toJson = .object members) : ∀ m ∈ members, m.2.Finite := by
  have hfinite := e.storable_toJson.1.finite
  rw [h] at hfinite
  cases hfinite with
  | object hmembers => exact hmembers

theorem Screen.storable_toJson (s : Screen) : Storable 3 s.toJson := by
  refine storable_object ?_
  simp only [List.forall_mem_cons, List.not_mem_nil, false_imp_iff, implies_true, and_true]
  exact ⟨storable_text _, storable_text _, storable_nullableText _, storable_nullableText _,
    storable_nullableText _, storable_list Element.storable_toJson _⟩

theorem Asset.storable_toJson (a : Asset) : Storable 1 a.toJson := by
  refine storable_object ?_
  simp only [List.forall_mem_cons, List.not_mem_nil, false_imp_iff, implies_true, and_true]
  exact ⟨storable_text _, storable_text _, storable_word _, storable_word _, storable_text _,
    storable_text _⟩

/-- Every project can be stored. -/
theorem Project.storable_toJson (p : Project) : Storable 5 p.toJson := by
  refine storable_object ?_
  simp only [List.forall_mem_cons, List.not_mem_nil, false_imp_iff, implies_true, and_true]
  exact ⟨storable_list Screen.storable_toJson _, storable_text _, storable_nullableText _,
    (storable_list Asset.storable_toJson _).mono (by decide), storable_word _, storable_word _⟩

end PanelSketch
