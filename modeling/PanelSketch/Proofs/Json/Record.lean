import Mathlib.Data.List.Nodup
import PanelSketch.Proofs.Json.Reading

/-!
# Reading Records

The members of an object may come in any order, with strangers among them, and some
may be missing. `Slot` says what a document must hold of one field and `Fills` what it
must hold of all of them. The order does not occur in either, so nothing has to be
proved about reordering.

While an object is read, the record on the way has the fields that were given and is
blank elsewhere. That is the invariant of the loop: the state after some members is a
function of their keys, `given`, and a member with a new key moves it on. At the end
every field was given or is to be blank anyway.

## Main definitions

* `Slot`, `Fills`: What a document holds of a record.
* `Handles`: A member moves the record on the way from one state to the next.
* `Serves`: A field reads what its slot says.
* `Restores`: The record that is given key by key.

## Theorems

* `read_object`: An object is read member by member.
* `takes_record`: A record is read from any object that fills its slots.
* `Fills.perm`, `Fills.insert`, `Fills.omit`: What may be done to a document.
-/

namespace PanelSketch.Json

variable {ρ α : Type}

/-! ### Slots -/

/-- What a document holds of one field of a record: under which key, whether it may be
    left out, and which values say what the field holds. -/
structure Slot where
  key : String
  optional : Prop
  fits : Value → Prop

/-- The slot of a field that is written in one way and left out when it holds its
    default. -/
def Slot.of (key : String) (a default : α) (write : α → Value) : Slot :=
  ⟨key, a = default, (· = write a)⟩

/-- Whether the members of an object say what the slots ask for. Members with other
    keys may have any value, and the order does not matter. -/
structure Fills (slots : List Slot) (members : List (String × Value)) : Prop where
  once : ∀ slot ∈ slots, (members.map Prod.fst).count slot.key ≤ 1
  fits : ∀ slot ∈ slots, ∀ m ∈ members, m.1 = slot.key → slot.fits m.2
  complete : ∀ slot ∈ slots, slot.optional ∨ slot.key ∈ members.map Prod.fst

/-- The keys that the slots declare. -/
def keysOf (slots : List Slot) : List String :=
  slots.map Slot.key

theorem Fills.perm {slots : List Slot} {members members' : List (String × Value)}
    (h : Fills slots members) (hperm : members.Perm members') : Fills slots members' := by
  have hkeys := hperm.map Prod.fst
  refine ⟨fun slot hslot => ?_, fun slot hslot m hm => ?_, fun slot hslot => ?_⟩
  · rw [← hkeys.count_eq]
    exact h.once slot hslot
  · exact h.fits slot hslot m (hperm.mem_iff.mpr hm)
  · rw [← hkeys.mem_iff]
    exact h.complete slot hslot

/-- Members that no slot declares may be added. -/
theorem Fills.insert {slots : List Slot} {members : List (String × Value)}
    (h : Fills slots members) (key : String) (hkey : key ∉ keysOf slots) (v : Value) :
    Fills slots ((key, v) :: members) := by
  have hne : ∀ slot ∈ slots, key ≠ slot.key := by
    rintro slot hslot rfl
    exact hkey (List.mem_map_of_mem hslot)
  refine ⟨fun slot hslot => ?_, fun slot hslot m hm hm' => ?_, fun slot hslot => ?_⟩
  · rw [List.map_cons, List.count_cons_of_ne (hne slot hslot)]
    exact h.once slot hslot
  · rcases List.mem_cons.mp hm with rfl | hm
    · exact absurd hm' (hne slot hslot)
    · exact h.fits slot hslot m hm hm'
  · exact (h.complete slot hslot).imp_right fun hmem => List.mem_cons_of_mem _ hmem

/-- A member may be left out whose slot is optional. -/
theorem Fills.omit {slots : List Slot} {members : List (String × Value)} {m : String × Value}
    (h : Fills slots (m :: members))
    (hoptional : ∀ slot ∈ slots, slot.key = m.1 → slot.optional) : Fills slots members := by
  refine ⟨fun slot hslot => ?_, fun slot hslot m' hm' => ?_, fun slot hslot => ?_⟩
  · exact Nat.le_trans (List.count_le_count_cons ..) (h.once slot hslot)
  · exact h.fits slot hslot m' (List.mem_cons_of_mem _ hm')
  · rcases h.complete slot hslot with hfree | hmem
    · exact Or.inl hfree
    · rcases List.mem_cons.mp hmem with heq | hmem
      · exact Or.inl (hoptional slot hslot heq)
      · exact Or.inr hmem

/-- Members written slot by slot, in the order of the slots, of which optional ones may
    be skipped. -/
inductive Writes : List Slot → List (String × Value) → Prop
  | nil : Writes [] []
  | cons {slot : Slot} {slots : List Slot} {v : Value} {members : List (String × Value)}
      (hv : slot.fits v) (h : Writes slots members) :
      Writes (slot :: slots) ((slot.key, v) :: members)
  | skip {slot : Slot} {slots : List Slot} {members : List (String × Value)}
      (hslot : slot.optional) (h : Writes slots members) : Writes (slot :: slots) members

theorem Writes.append {slots slots' : List Slot} {members members' : List (String × Value)}
    (h : Writes slots members) (h' : Writes slots' members') :
    Writes (slots ++ slots') (members ++ members') := by
  induction h with
  | nil => exact h'
  | cons hv _ ih => exact .cons hv ih
  | skip hslot _ ih => exact .skip hslot ih

theorem Writes.keys_sublist {slots : List Slot} {members : List (String × Value)}
    (h : Writes slots members) : (members.map Prod.fst).Sublist (keysOf slots) := by
  induction h with
  | nil => exact .slnil
  | cons _ _ ih => exact ih.cons_cons _
  | skip _ _ ih => exact ih.cons _

theorem Writes.fits {slots : List Slot} {members : List (String × Value)}
    (h : Writes slots members) (hkeys : (keysOf slots).Nodup) :
    ∀ slot ∈ slots, ∀ m ∈ members, m.1 = slot.key → slot.fits m.2 := by
  induction h with
  | nil => simp
  | @cons slot slots v members hv h ih =>
      obtain ⟨hnew, hkeys⟩ := List.nodup_cons.mp hkeys
      intro slot' hslot' m hm heq
      rcases List.mem_cons.mp hslot' with rfl | hslot'
      · rcases List.mem_cons.mp hm with rfl | hm
        · exact hv
        · exact absurd (h.keys_sublist.subset (heq ▸ List.mem_map_of_mem hm)) hnew
      · rcases List.mem_cons.mp hm with rfl | hm
        · exact absurd (List.mem_map.mpr ⟨slot', hslot', heq.symm⟩) hnew
        · exact ih hkeys slot' hslot' m hm heq
  | @skip slot slots members _ h ih =>
      obtain ⟨hnew, hkeys⟩ := List.nodup_cons.mp hkeys
      intro slot' hslot' m hm heq
      rcases List.mem_cons.mp hslot' with rfl | hslot'
      · exact absurd (h.keys_sublist.subset (heq ▸ List.mem_map_of_mem hm)) hnew
      · exact ih hkeys slot' hslot' m hm heq

theorem Writes.complete {slots : List Slot} {members : List (String × Value)}
    (h : Writes slots members) :
    ∀ slot ∈ slots, slot.optional ∨ slot.key ∈ members.map Prod.fst := by
  induction h with
  | nil => simp
  | cons _ _ ih =>
      rw [List.forall_mem_cons]
      exact ⟨Or.inr List.mem_cons_self, fun slot hslot =>
        (ih slot hslot).imp_right fun hmem => List.mem_cons_of_mem _ hmem⟩
  | skip hslot _ ih => exact List.forall_mem_cons.mpr ⟨Or.inl hslot, ih⟩

theorem Writes.fills {slots : List Slot} {members : List (String × Value)}
    (h : Writes slots members) (hkeys : (keysOf slots).Nodup) : Fills slots members :=
  ⟨fun slot _ => Nat.le_trans (h.keys_sublist.count_le slot.key)
    (List.nodup_iff_count_le_one.mp hkeys slot.key), h.fits hkeys, h.complete⟩

/-! ### Objects -/

/-- Whether a member moves the record on the way from one state to the next, whatever
    members came before. The members before are listed latest first. -/
structure Handles (fields : List (RecordField ρ)) (stray : Stray ρ) (levels : Nat)
    (state : List (String × Value) → ρ) (m : String × Value) : Prop where
  declared : ∀ field ∈ fields, field.key = m.1 →
    ∃ change, Takes (field.update levels) m.2 change
      ∧ ∀ before, change (state before) = state (m :: before)
  stray : (∀ field ∈ fields, field.key ≠ m.1) →
    ∀ before, Takes (stray levels m.1 (state before)) m.2 (state (m :: before))

theorem turns_record {fields : List (RecordField ρ)} {stray : Stray ρ} {levels : Nat}
    {state : List (String × Value) → ρ} {pieces : List (List Char)}
    {members : List (String × Value)} (hpieces : List.Forall₂ SpellsMember pieces members)
    (hhandles : ∀ m ∈ members, Handles fields stray levels state m)
    (honce : ∀ field ∈ fields, (members.map Prod.fst).count field.key ≤ 1)
    (before : List (String × Value)) (seen : List String)
    (hseen : ∀ field ∈ fields, field.key ∈ members.map Prod.fst → field.key ∉ seen) :
    ∃ seen', Turns memberPunctuation (member fields stray levels) ⟨state before, seen⟩ pieces
      ⟨state (members.reverse ++ before), seen'⟩ := by
  -- Members go over to those before and keys to those seen, so both are general.
  induction hpieces generalizing before seen with
  | nil => exact ⟨seen, .nil⟩
  | @cons piece m pieces members hpiece _ ih =>
      rw [List.forall_mem_cons] at hhandles
      have honce' : ∀ field ∈ fields, (members.map Prod.fst).count field.key ≤ 1 :=
        fun field hfield => Nat.le_trans (List.count_le_count_cons ..) (honce field hfield)
      rw [List.reverse_cons, List.append_assoc, List.singleton_append]
      cases hpiece with
      | @mk raw ws ws' cs key v hkey hws hws' hspells =>
          rcases hfind : fields.find? (·.key == key) with _ | field
          · -- A stranger changes what its value changes, and may come again.
            have hnone : ∀ field ∈ fields, field.key ≠ key := by
              intro field hfield
              simpa using List.find?_eq_none.mp hfind field hfield
            obtain ⟨seen', hturns⟩ := ih hhandles.2 honce' ((key, v) :: before) seen
              fun field hfield hmem => hseen field hfield (List.mem_cons_of_mem _ hmem)
            have htakes := hhandles.1.stray hnone before
            refine ⟨seen', .cons rfl (fun lead rest hlead hrest => ?_) hturns⟩
            obtain rfl : lead = [] := hlead
            simp only [List.nil_append, List.cons_append, List.append_assoc]
            rw [member, bind_ok (readKey_cons hkey _), hfind]
            refine (bind_ok (colon_append hws _) _).trans ?_
            rw [bind_ok (htakes cs hspells ws' rest hws' hrest)]
            rfl
          · obtain rfl : field.key = key := by simpa using List.find?_some hfind
            have hfield : field ∈ fields := List.mem_of_find?_eq_some hfind
            have hnew : field.key ∉ seen := hseen field hfield List.mem_cons_self
            -- The key does not come again.
            have hgone : field.key ∉ members.map Prod.fst := by
              have hcount := honce field hfield
              rw [List.map_cons, List.count_cons_self] at hcount
              exact List.count_eq_zero.mp (by omega)
            obtain ⟨change, htakes, hchange⟩ := hhandles.1.declared field hfield rfl
            obtain ⟨seen', hturns⟩ := ih hhandles.2 honce' ((field.key, v) :: before)
              (field.key :: seen) fun field' hfield' hmem hmem' => by
                rcases List.mem_cons.mp hmem' with heq | hmem'
                · exact hgone (heq ▸ hmem)
                · exact hseen field' hfield' (List.mem_cons_of_mem _ hmem) hmem'
            refine ⟨seen', .cons rfl (fun lead rest hlead hrest => ?_) hturns⟩
            obtain rfl : lead = [] := hlead
            simp only [List.nil_append, List.cons_append, List.append_assoc]
            rw [member, bind_ok (readKey_cons hkey _), hfind]
            simp only [if_neg hnew]
            rw [bind_ok (colon_append hws _), bind_ok (htakes cs hspells ws' rest hws' hrest),
              hchange before]
            rfl

/-- An object is read member by member, from its brace on. -/
theorem read_object {fields : List (RecordField ρ)} {stray : Stray ρ} {levels : Nat}
    {state : List (String × Value) → ρ} {members : List (String × Value)}
    (hhandles : ∀ m ∈ members, Handles fields stray levels state m)
    (honce : ∀ field ∈ fields, (members.map Prod.fst).count field.key ≤ 1)
    {cs : List Char} (hcs : Spells cs (.object members)) (rest : List Char) :
    object fields stray (state []) (levels + 1) (cs ++ rest)
      = .ok (state members.reverse, rest) := by
  cases hcs with
  | object hpieces hinner =>
      obtain ⟨seen', hturns⟩ := turns_record hpieces hhandles honce [] []
        fun _ _ _ => List.not_mem_nil
      rw [List.append_nil] at hturns
      rw [object, List.cons_append, List.append_assoc, bind_ok (advance_cons '\x7b' _),
        List.singleton_append, bind_ok (loop_members asks_moreMembers hturns hinner rest),
        bind_ok (endObject_cons rest)]
      rfl

/-! ### Records -/

/-- Whether a field reads what its slot says. -/
structure Serves (state : List (String × Value) → ρ) (levels : Nat) (slot : Slot)
    (field : RecordField ρ) : Prop where
  key_eq : field.key = slot.key
  update : ∀ v, slot.fits v → v.depth ≤ levels → ∃ change,
    Takes (field.update levels) v change
      ∧ ∀ before, change (state before) = state ((slot.key, v) :: before)

/-- A value that is written in one way is read when it is read in that way. -/
theorem takes_of_fits {key : String} {a default : α} {write : α → Value} {reader : Reader α}
    (h : Takes reader (write a) a) :
    ∀ v, (Slot.of key a default write).fits v → Takes reader v a := by
  rintro v rfl
  exact h

theorem serves_of {state : List (String × Value) → ρ} {levels : Nat} {slot : Slot}
    {reader : Reader α} {set : α → ρ → ρ} {a : α}
    (htakes : ∀ v, slot.fits v → Takes reader v a)
    (hset : ∀ v before, set a (state before) = state ((slot.key, v) :: before)) :
    Serves state levels slot (.of slot.key reader set) :=
  ⟨rfl, fun v hv _ => ⟨set a, takes_map (htakes v hv) set, hset v⟩⟩

/-- A member that a slot declares is handled by the field of that slot. -/
theorem handles_of_serves {state : List (String × Value) → ρ} {levels : Nat}
    {slots : List Slot} {fields : List (RecordField ρ)}
    (hserves : List.Forall₂ (Serves state levels) slots fields) {stray : Stray ρ}
    {m : String × Value} (hfits : ∀ slot ∈ slots, m.1 = slot.key → slot.fits m.2)
    (hdepth : m.2.depth ≤ levels)
    (hstray : m.1 ∉ keysOf slots →
      ∀ before, Takes (stray levels m.1 (state before)) m.2 (state (m :: before))) :
    Handles fields stray levels state m := by
  refine ⟨fun field hfield hkey => ?_, fun hnone => hstray fun hmem => ?_⟩
  · obtain ⟨slot, hslot, hserve⟩ := exists_of_forall₂ hserves field hfield
    have heq : m.1 = slot.key := hkey.symm.trans hserve.key_eq
    obtain ⟨change, htakes, hchange⟩ := hserve.update m.2 (hfits slot hslot heq) hdepth
    rw [← heq] at hchange
    exact ⟨change, htakes, hchange⟩
  · obtain ⟨slot, hslot, hkey⟩ := List.mem_map.mp hmem
    obtain ⟨field, hfield, hserve⟩ := exists_of_forall₂ hserves.flip slot hslot
    exact hnone field hfield (hserve.key_eq.trans hkey)

/-- Whether a record is blank at first, is left alone by keys that no slot declares, and
    is complete when no slot is missing that may not be left out. -/
structure Restores (slots : List Slot) (state : List (String × Value) → ρ)
    (blank target : ρ) : Prop where
  blank : state [] = blank
  stray : ∀ m before, m.1 ∉ keysOf slots → state (m :: before) = state before
  complete : ∀ members, (∀ slot ∈ slots, slot.optional ∨ slot.key ∈ members.map Prod.fst) →
    state members = target

theorem takes_ignored (levels : Nat) (key : String) (v : Value) (r : ρ) :
    Takes (ignored levels key r) v r := by
  intro cs hcs ws rest hws hrest
  rw [ignored, bind_ok (takes_pass v cs hcs ws rest hws hrest)]
  rfl

/-- A record is read from any object that fills its slots. -/
theorem takes_record {wanted : String} {fields : List (RecordField ρ)} {blank target : ρ}
    {slots : List Slot} {state : List (String × Value) → ρ}
    (hserves : ∀ levels, List.Forall₂ (Serves state levels) slots fields)
    (hrestores : Restores slots state blank target) {members : List (String × Value)}
    (hfills : Fills slots members) {levels : Nat}
    (hdepth : (Value.object members).depth ≤ levels) :
    Takes (record wanted fields blank levels) (.object members) target := by
  rcases levels with _ | levels
  · exact absurd hdepth (Nat.not_succ_le_zero _)
  rw [depth_object_le] at hdepth
  have hhandles : ∀ m ∈ members, Handles fields ignored levels state m := by
    intro m hm
    refine handles_of_serves (hserves levels) (fun slot hslot => hfills.fits slot hslot m hm)
      (hdepth m hm) fun hstray before => ?_
    rw [hrestores.stray m before hstray]
    exact takes_ignored levels m.1 m.2 (state before)
  have honce : ∀ field ∈ fields, (members.map Prod.fst).count field.key ≤ 1 := by
    intro field hfield
    obtain ⟨slot, hslot, hserve⟩ := exists_of_forall₂ (hserves levels) field hfield
    rw [hserve.key_eq]
    exact hfills.once slot hslot
  have hfull : state members.reverse = target := by
    refine hrestores.complete _ fun slot hslot => ?_
    rw [List.map_reverse, List.mem_reverse]
    exact hfills.complete slot hslot
  intro cs hcs ws rest hws hrest
  have hread := read_object hhandles honce hcs rest
  rw [hrestores.blank, hfull] at hread
  cases hcs with
  | object hpieces hinner =>
      rw [List.cons_append] at hread ⊢
      rw [record, bind_ok (next?_cons hws rfl _)]
      exact hread

/-! ### Records given key by key -/

/-- What a field holds after some members: what it is to hold, if its key was among
    them, and its default otherwise. -/
def chosen (members : List (String × Value)) (key : String) (a default : α) : α :=
  if key ∈ members.map Prod.fst then a else default

@[simp] theorem chosen_cons_self (key : String) (v : Value) (before : List (String × Value))
    (a default : α) : chosen ((key, v) :: before) key a default = a :=
  if_pos List.mem_cons_self

theorem chosen_cons_of_ne {key : String} {m : String × Value} (h : m.1 ≠ key)
    (before : List (String × Value)) (a default : α) :
    chosen (m :: before) key a default = chosen before key a default := by
  have hiff : key ∈ (m :: before).map Prod.fst ↔ key ∈ before.map Prod.fst := by
    rw [List.map_cons, List.mem_cons, or_iff_right h.symm]
  simp only [chosen, hiff]

theorem chosen_eq {members : List (String × Value)} {key : String} {a default : α}
    (h : a = default ∨ key ∈ members.map Prod.fst) : chosen members key a default = a := by
  rcases h with rfl | h
  · exact ite_self _
  · exact if_pos h

end PanelSketch.Json
