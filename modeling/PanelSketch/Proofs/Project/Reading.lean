import PanelSketch.Proofs.Project.Describing

/-!
# Reading Projects

Every document that describes a project is read as that project, however it is
spelled. The proof follows the readers from the fields outwards, and each part on the
way has a state: what a part is once some of its members have been read.

Elements are read in two steps, and so is their lemma. The members that no field has
are put aside in the order in which they stand, bindings and strangers mixed, and the
bindings are picked from them afterwards. The state of an element therefore holds both
its own fields and what was put aside.

## Main definitions

* `Element.given`, `Bindings.given`, `Screen.given`, `Asset.given`, `Project.given`:
  Parts of which some members have been read.

## Theorems

* `pickBindings_eq`: Bindings are picked from among strangers, in any order.
* `Element.takes`, `Screen.takes`, `Asset.takes`, `Project.takes`: Parts are read from
  the documents that describe them.
-/

namespace PanelSketch

open Json (Slot Fills Serves Restores Handles Takes Value chosen keysOf serves_of takes_of_fits
  takes_text)

/-! ### Fields -/

theorem takes_pixels (n : Int32) : Takes pixelsReader (integerValue n.toInt) n := by
  refine Json.takes_integer ?_
  have hleast := n.le_toInt
  have hgreatest := n.toInt_lt
  rw [Text.pixelsOfInt?, if_pos ⟨by simpa [Text.leastPixels] using hleast, by
    simp only [Text.greatestPixels]; omega⟩, Int32.ofInt_toInt]

theorem takes_word (n : UInt32) : Takes wordReader (integerValue n.toNat) n := by
  refine Json.takes_integer ?_
  have hlt := n.toNat_lt
  rw [wordOfInt?, if_pos ⟨by omega, by exact_mod_cast hlt⟩, Int.toNat_natCast, UInt32.ofNat_toNat]

theorem takes_nullableText (s : Option String) :
    Takes nullableTextReader (nullableText s) s := by
  rcases s with _ | s
  · exact Json.takes_nullable_null Json.text
  · exact Json.takes_nullable (by simp [nullableText]) (Json.takes_text s)

theorem takes_primitive {p : Primitive} {tag : String} (h : p.NamedBy tag) :
    Takes primitiveReader (.text tag) p := by
  intro cs hcs ws rest hws hrest
  rw [primitiveReader, Json.bind_ok (Json.takes_text tag cs hcs ws rest hws hrest),
    Primitive.parse?_of_namedBy h]
  rfl

theorem takes_storage (s : Storage) : Takes storageReader (.text s.tag) s := by
  intro cs hcs ws rest hws hrest
  have htext := Json.takes_text s.tag cs hcs [] rest Json.blanks_nil hrest
  have htag : storageOfTag s.tag = return s := by cases s <;> rfl
  cases hcs with
  | text h =>
      rw [List.nil_append, List.cons_append] at htext
      rw [storageReader, List.cons_append, Json.bind_ok (Json.next?_cons hws rfl _)]
      refine (Json.bind_ok htext _).trans ?_
      rw [htag]
      rfl

/-- Lists are read item by item, one level further down. -/
theorem takes_listSlot {α : Type} {key : String} {as default : List α}
    {describes : α → Value → Prop} {item : Nat → Json.Reader α}
    (hitem : ∀ a v levels, describes a v → v.depth ≤ levels → Takes (item levels) v a)
    {v : Value} (hv : (listSlot key as default describes).fits v) {levels : Nat}
    (hdepth : v.depth ≤ levels) : Takes (Json.list item levels) v as := by
  obtain ⟨items, rfl, hitems⟩ := hv
  rcases levels with _ | levels
  · exact absurd hdepth (Nat.not_succ_le_zero _)
  rw [Json.depth_list_le] at hdepth
  refine Json.takes_list (List.Forall₂.imp (fun v a h => ?_)
    ((List.forall₂_and_left items as).mpr ⟨hdepth, hitems⟩))
  exact hitem a v levels h.2 h.1

theorem serves_listSlot {ρ α : Type} {state : List (String × Value) → ρ} {levels : Nat}
    {key : String} {as default : List α} {describes : α → Value → Prop}
    {item : Nat → Json.Reader α} {set : List α → ρ → ρ}
    (hitem : ∀ a v levels, describes a v → v.depth ≤ levels → Takes (item levels) v a)
    (hset : ∀ v before, set as (state before) = state ((key, v) :: before)) :
    Serves state levels (listSlot key as default describes)
      ⟨key, fun levels => do return set (← Json.list item levels)⟩ :=
  ⟨rfl, fun v hv hdepth => ⟨set as, Json.takes_map (takes_listSlot hitem hv hdepth) set, hset v⟩⟩

/-! ### Elements -/

/-- Bindings of which some have been picked. -/
def Bindings.given (b : Bindings) (members : List (String × Value)) : Bindings where
  x := chosen members "xBind" b.x none
  y := chosen members "yBind" b.y none
  w := chosen members "wBind" b.w none
  h := chosen members "hBind" b.h none
  color := chosen members "colorBind" b.color none
  value := chosen members "valueBind" b.value none

theorem bindingToken_nullableText (s : Option String) : bindingToken (nullableText s) = .ok s := by
  rcases s with _ | s <;> rfl

/-- Whether picking a binding by its key fills the slot with that key. -/
def Bindings.Picks (b : Bindings) (key : String) (set : Option String → Bindings → Bindings) :
    Prop :=
  ∃ slot ∈ b.slots, slot.key = key ∧ ∀ v, slot.fits v → ∃ token, bindingToken v = .ok token
    ∧ ∀ before, set token (b.given before) = b.given ((key, v) :: before)

theorem Bindings.picks_of {b : Bindings} {key : String} {s : Option String}
    {set : Option String → Bindings → Bindings}
    (hslot : Slot.of key s none nullableText ∈ b.slots)
    (hset : ∀ v before, set s (b.given before) = b.given ((key, v) :: before)) :
    b.Picks key set := by
  refine ⟨_, hslot, rfl, fun v hv => ⟨s, ?_, hset v⟩⟩
  obtain rfl : v = nullableText s := hv
  exact bindingToken_nullableText s

theorem Bindings.picks {key : String} {set : Option String → Bindings → Bindings}
    (h : bindingSetter? key = some set) (b : Bindings) : b.Picks key set := by
  unfold bindingSetter? at h
  split at h
  case h_7 => exact absurd h (by simp)
  all_goals
    obtain rfl := Option.some.inj h
  · exact picks_of (s := b.x) (by simp [slots]) (by simp [given, Json.chosen_cons_of_ne])
  · exact picks_of (s := b.y) (by simp [slots]) (by simp [given, Json.chosen_cons_of_ne])
  · exact picks_of (s := b.w) (by simp [slots]) (by simp [given, Json.chosen_cons_of_ne])
  · exact picks_of (s := b.h) (by simp [slots]) (by simp [given, Json.chosen_cons_of_ne])
  · exact picks_of (s := b.color) (by simp [slots]) (by simp [given, Json.chosen_cons_of_ne])
  · exact picks_of (s := b.value) (by simp [slots]) (by simp [given, Json.chosen_cons_of_ne])

theorem Bindings.given_stray {key : String} (h : bindingSetter? key = none) (b : Bindings)
    (v : Value) (before : List (String × Value)) :
    b.given ((key, v) :: before) = b.given before := by
  unfold bindingSetter? at h
  split at h
  case h_7 hx hy hw hh hcolor hvalue =>
    rw [given, given, Json.chosen_cons_of_ne hx, Json.chosen_cons_of_ne hy,
      Json.chosen_cons_of_ne hw, Json.chosen_cons_of_ne hh, Json.chosen_cons_of_ne hcolor,
      Json.chosen_cons_of_ne hvalue]
  all_goals exact absurd h (by simp)

theorem Bindings.given_eq {b : Bindings} {members : List (String × Value)}
    (h : ∀ slot ∈ b.slots, slot.optional ∨ slot.key ∈ members.map Prod.fst) :
    b.given members = b := by
  simp only [slots, Slot.of, List.forall_mem_cons] at h
  obtain ⟨hx, hy, hw, hh, hcolor, hvalue, -⟩ := h
  rw [given, Json.chosen_eq hx, Json.chosen_eq hy, Json.chosen_eq hw, Json.chosen_eq hh,
    Json.chosen_eq hcolor, Json.chosen_eq hvalue]

/-- Bindings are picked whatever stands between them. -/
theorem pickBindings_eq {b : Bindings} (members before : List (String × Value))
    (seen : List String)
    (honce : ∀ slot ∈ b.slots, (members.map Prod.fst).count slot.key ≤ 1)
    (hfits : ∀ slot ∈ b.slots, ∀ m ∈ members, m.1 = slot.key → slot.fits m.2)
    (hseen : ∀ key ∈ members.map Prod.fst, key ∈ keysOf b.slots → key ∉ seen) :
    pickBindings seen (b.given before) members = .ok (b.given (members.reverse ++ before)) := by
  induction members generalizing before seen with
  | nil => rfl
  | cons m members ih =>
      obtain ⟨key, v⟩ := m
      have honce' : ∀ slot ∈ b.slots, (members.map Prod.fst).count slot.key ≤ 1 :=
        fun slot hslot => Nat.le_trans (List.count_le_count_cons ..) (honce slot hslot)
      have hfits' : ∀ slot ∈ b.slots, ∀ m ∈ members, m.1 = slot.key → slot.fits m.2 :=
        fun slot hslot m hm => hfits slot hslot m (List.mem_cons_of_mem _ hm)
      rw [List.map_cons, List.forall_mem_cons] at hseen
      rw [pickBindings, List.reverse_cons, List.append_assoc, List.singleton_append]
      rcases hset : bindingSetter? key with _ | set
      · rw [← b.given_stray hset v before]
        exact ih _ _ honce' hfits' hseen.2
      · obtain ⟨slot, hslot, rfl, hpick⟩ := Bindings.picks hset b
        obtain ⟨token, htoken, hgiven⟩ :=
          hpick v (hfits slot hslot _ List.mem_cons_self rfl)
        -- The key does not come again.
        have hgone : slot.key ∉ members.map Prod.fst := by
          have hcount := honce slot hslot
          rw [List.map_cons, List.count_cons_self] at hcount
          exact List.count_eq_zero.mp (by omega)
        simp only [if_neg (hseen.1 (List.mem_map_of_mem hslot)), htoken]
        change pickBindings (slot.key :: seen) (set token (b.given before)) members = _
        rw [hgiven before]
        refine ih _ _ honce' hfits' fun key hkey hdeclared hmem => ?_
        rcases List.mem_cons.mp hmem with rfl | hmem
        · exact hgone hkey
        · exact hseen.2 key hkey hdeclared hmem

/-- The own fields of an element of which some have been read. -/
def Element.given (e : Element) (members : List (String × Value)) : Element :=
  let blank : Element := {}
  { id := chosen members "id" e.id blank.id
    kind := chosen members "type" e.kind blank.kind
    name := chosen members "name" e.name blank.name
    x := chosen members "x" e.x blank.x
    y := chosen members "y" e.y blank.y
    w := chosen members "w" e.w blank.w
    h := chosen members "h" e.h blank.h
    color := chosen members "color" e.color blank.color
    asset := chosen members "asset" e.asset blank.asset
    target := chosen members "targetScreenId" e.target blank.target }

/-- An element of which some members have been read, with those put aside that no field
    has. -/
def Element.draft (e : Element) (members : List (String × Value)) : ElementDraft where
  element := e.given members
  aside := members.filter fun m => m.1 ∉ keysOf e.ownSlots

theorem Element.given_eq {e : Element} {members : List (String × Value)}
    (h : ∀ slot ∈ e.ownSlots, slot.optional ∨ slot.key ∈ members.map Prod.fst) :
    e.given members = { e with bindings := {} } := by
  simp only [ownSlots, Slot.of, List.forall_mem_cons] at h
  obtain ⟨hid, hkind, hname, hx, hy, hw, hh, hcolor, hasset, htarget, -⟩ := h
  simp only [given, Json.chosen_eq hid, Json.chosen_eq hkind, Json.chosen_eq hname,
    Json.chosen_eq hx, Json.chosen_eq hy, Json.chosen_eq hw, Json.chosen_eq hh,
    Json.chosen_eq hcolor, Json.chosen_eq hasset, Json.chosen_eq htarget]

theorem Element.given_stray {e : Element} {m : String × Value}
    (h : m.1 ∉ keysOf e.ownSlots) (before : List (String × Value)) :
    e.given (m :: before) = e.given before := by
  simp only [keysOf, ownSlots, Slot.of, List.map_cons, List.map_nil, List.mem_cons,
    List.not_mem_nil, not_or] at h
  obtain ⟨hid, hkind, hname, hx, hy, hw, hh, hcolor, hasset, htarget, -⟩ := h
  simp only [given, Json.chosen_cons_of_ne hid, Json.chosen_cons_of_ne hkind,
    Json.chosen_cons_of_ne hname, Json.chosen_cons_of_ne hx, Json.chosen_cons_of_ne hy,
    Json.chosen_cons_of_ne hw, Json.chosen_cons_of_ne hh, Json.chosen_cons_of_ne hcolor,
    Json.chosen_cons_of_ne hasset, Json.chosen_cons_of_ne htarget]

/-- A field of an element reads its slot when storing moves on the fields read so far. -/
theorem Element.serves_own {α : Type} {e : Element} {levels : Nat} {slot : Slot}
    {reader : Json.Reader α} {set : α → Element → Element} {a : α}
    (hslot : slot.key ∈ keysOf e.ownSlots)
    (htakes : ∀ v, slot.fits v → Takes reader v a)
    (hset : ∀ v before, set a (e.given before) = e.given ((slot.key, v) :: before)) :
    Serves e.draft levels slot (ElementDraft.field slot.key reader set) := by
  refine Json.serves_of htakes fun v before => ?_
  rw [draft, draft, ← hset v before, List.filter_cons_of_neg (by simpa using hslot)]

theorem Element.serves (e : Element) (levels : Nat) :
    List.Forall₂ (Serves e.draft levels) e.ownSlots elementFields := by
  have hkind : ∀ v, (∃ tag, v = .text tag ∧ e.kind.NamedBy tag) →
      Takes primitiveReader v e.kind := by
    rintro v ⟨tag, rfl, htag⟩
    exact takes_primitive htag
  refine .cons (serves_own ?_ (takes_of_fits (takes_text e.id)) ?_) <|
    .cons (serves_own ?_ hkind ?_) <|
    .cons (serves_own ?_ (takes_of_fits (takes_text e.name)) ?_) <|
    .cons (serves_own ?_ (takes_of_fits (takes_pixels e.x)) ?_) <|
    .cons (serves_own ?_ (takes_of_fits (takes_pixels e.y)) ?_) <|
    .cons (serves_own ?_ (takes_of_fits (takes_pixels e.w)) ?_) <|
    .cons (serves_own ?_ (takes_of_fits (takes_pixels e.h)) ?_) <|
    .cons (serves_own ?_ (takes_of_fits (takes_text e.color)) ?_) <|
    .cons (serves_own ?_ (takes_of_fits (takes_nullableText e.asset)) ?_) <|
    .cons (serves_own ?_ (takes_of_fits (takes_nullableText e.target)) ?_) .nil
  all_goals simp [keysOf, ownSlots, Slot.of, given, Json.chosen_cons_of_ne]

/-- Reading the members of an element goes through its drafts. -/
theorem Element.handles {e : Element} {members : List (String × Value)}
    (hfills : Fills e.slots members) (hfinite : ∀ m ∈ members, m.2.Finite) {levels : Nat}
    (hdepth : ∀ m ∈ members, m.2.depth ≤ levels) :
    ∀ m ∈ members, Handles elementFields putAside levels e.draft m := by
  intro m hm
  refine Json.handles_of_serves (e.serves levels)
    (fun slot hslot => hfills.fits slot (List.mem_append_left _ hslot) m hm) (hdepth m hm)
    fun hstray before => ?_
  have hdraft : e.draft (m :: before)
      = { e.draft before with aside := (m.1, m.2) :: (e.draft before).aside } := by
    rw [draft, draft, given_stray hstray, List.filter_cons_of_pos (by simpa using hstray)]
  rw [hdraft]
  exact Json.takes_map (Json.takes_value (hdepth m hm) (hfinite m hm)) _

/-- Once all members are read, the bindings are among those that were put aside. -/
theorem Element.pickBindings_draft {e : Element} {members : List (String × Value)}
    (hfills : Fills e.slots members) :
    pickBindings [] {} (e.draft members.reverse).aside.reverse = .ok e.bindings := by
  have haside : (e.draft members.reverse).aside.reverse
      = members.filter fun m => m.1 ∉ keysOf e.ownSlots := by
    rw [draft, List.filter_reverse, List.reverse_reverse]
  -- What was put aside is what a document holds of the bindings, and strangers.
  have hpick := pickBindings_eq (b := e.bindings)
    (members.filter fun m => m.1 ∉ keysOf e.ownSlots) [] []
    (fun slot hslot => Nat.le_trans ((List.filter_sublist.map Prod.fst).count_le slot.key)
      (hfills.once slot (List.mem_append_right _ hslot)))
    (fun slot hslot m hm => hfills.fits slot (List.mem_append_right _ hslot) m
      (List.mem_of_mem_filter hm))
    (fun _ _ _ => List.not_mem_nil)
  have hbindings : e.bindings.given (members.filter fun m => m.1 ∉ keysOf e.ownSlots).reverse
      = e.bindings := by
    refine Bindings.given_eq fun slot hslot => ?_
    refine (hfills.complete slot (List.mem_append_right _ hslot)).imp_right fun hmem => ?_
    -- The key of a binding is the key of no field.
    have hdisjoint : slot.key ∉ keysOf e.ownSlots := by
      have hnodup := e.nodup_keys
      rw [slots, keysOf, List.map_append] at hnodup
      exact fun hown => (List.nodup_append.mp hnodup).2.2 _ hown _ (List.mem_map_of_mem hslot) rfl
    obtain ⟨m, hm, heq⟩ := List.mem_map.mp hmem
    rw [List.map_reverse, List.mem_reverse, ← heq]
    refine List.mem_map_of_mem (List.mem_filter.mpr ⟨hm, ?_⟩)
    simpa [heq] using hdisjoint
  rw [haside]
  rw [List.append_nil, hbindings] at hpick
  exact hpick

/-- An element is read from every document that describes it. -/
theorem Element.takes {e : Element} {v : Value} (h : e.DescribedBy v) {levels : Nat}
    (hdepth : v.depth ≤ levels) : Takes (elementReader levels) v e := by
  obtain ⟨members, rfl, hfills, hfinite⟩ := h
  rcases levels with _ | levels
  · exact absurd hdepth (Nat.not_succ_le_zero _)
  rw [Json.depth_object_le] at hdepth
  have honce : ∀ field ∈ elementFields, (members.map Prod.fst).count field.key ≤ 1 := by
    intro field hfield
    obtain ⟨slot, hslot, hserve⟩ := Json.exists_of_forall₂ (e.serves levels) field hfield
    rw [hserve.key_eq]
    exact hfills.once slot (List.mem_append_left _ hslot)
  have hgiven : e.given members.reverse = { e with bindings := {} } := by
    refine Element.given_eq fun slot hslot => ?_
    rw [List.map_reverse, List.mem_reverse]
    exact hfills.complete slot (List.mem_append_left _ hslot)
  intro cs hcs ws rest hws hrest
  have hread := Json.read_object (Element.handles hfills hfinite hdepth) honce hcs rest
  cases hcs with
  | object hpieces hinner =>
      rw [List.cons_append] at hread ⊢
      rw [elementReader, Json.bind_ok (Json.next?_cons hws rfl _)]
      refine (Json.bind_ok hread _).trans ?_
      rw [Element.pickBindings_draft hfills]
      simp only [draft, hgiven]
      rfl

/-! ### Screens -/

/-- A screen of which some members have been read. -/
def Screen.given (s : Screen) (members : List (String × Value)) : Screen :=
  let blank : Screen := {}
  { id := chosen members "id" s.id blank.id
    name := chosen members "name" s.name blank.name
    background := chosen members "background" s.background blank.background
    backgroundAsset := chosen members "backgroundAsset" s.backgroundAsset blank.backgroundAsset
    backgroundColor := chosen members "backgroundColor" s.backgroundColor blank.backgroundColor
    elements := chosen members "elements" s.elements blank.elements }

theorem Screen.restores (s : Screen) : Restores s.slots s.given {} s where
  blank := rfl
  stray m before h := by
    simp only [keysOf, slots, Slot.of, listSlot, List.map_cons, List.map_nil, List.mem_cons,
      List.not_mem_nil, not_or] at h
    obtain ⟨hid, hname, hbackground, hasset, hcolor, helements, -⟩ := h
    simp only [given, Json.chosen_cons_of_ne hid, Json.chosen_cons_of_ne hname,
      Json.chosen_cons_of_ne hbackground, Json.chosen_cons_of_ne hasset,
      Json.chosen_cons_of_ne hcolor, Json.chosen_cons_of_ne helements]
  complete members h := by
    simp only [slots, Slot.of, listSlot, List.forall_mem_cons] at h
    obtain ⟨hid, hname, hbackground, hasset, hcolor, helements, -⟩ := h
    simp only [given, Json.chosen_eq hid, Json.chosen_eq hname, Json.chosen_eq hbackground,
      Json.chosen_eq hasset, Json.chosen_eq hcolor, Json.chosen_eq helements]

theorem Screen.serves (s : Screen) (levels : Nat) :
    List.Forall₂ (Serves s.given levels) s.slots screenFields := by
  refine .cons (serves_of (takes_of_fits (takes_text s.id)) ?_) <|
    .cons (serves_of (takes_of_fits (takes_text s.name)) ?_) <|
    .cons (serves_of (takes_of_fits (takes_nullableText s.background)) ?_) <|
    .cons (serves_of (takes_of_fits (takes_nullableText s.backgroundAsset)) ?_) <|
    .cons (serves_of (takes_of_fits (takes_nullableText s.backgroundColor)) ?_) <|
    .cons (serves_listSlot (fun _ _ _ h => Element.takes h) ?_) .nil
  all_goals simp [Slot.of, given, Json.chosen_cons_of_ne]

/-- A screen is read from every document that describes it. -/
theorem Screen.takes {s : Screen} {v : Value} (h : s.DescribedBy v) {levels : Nat}
    (hdepth : v.depth ≤ levels) : Takes (screenReader levels) v s := by
  obtain ⟨members, rfl, hfills⟩ := h
  exact Json.takes_record s.serves s.restores hfills hdepth

/-! ### Assets -/

/-- An asset of which some members have been read. -/
def Asset.given (a : Asset) (members : List (String × Value)) : Asset :=
  let blank : Asset := {}
  { name := chosen members "name" a.name blank.name
    dataUrl := chosen members "dataUrl" a.dataUrl blank.dataUrl
    width := chosen members "width" a.width blank.width
    height := chosen members "height" a.height blank.height
    kind := chosen members "kind" a.kind blank.kind
    storage := chosen members "storageType" a.storage blank.storage }

theorem Asset.restores (a : Asset) : Restores a.slots a.given {} a where
  blank := rfl
  stray m before h := by
    simp only [keysOf, slots, Slot.of, List.map_cons, List.map_nil, List.mem_cons,
      List.not_mem_nil, not_or] at h
    obtain ⟨hname, hdata, hwidth, hheight, hkind, hstorage, -⟩ := h
    simp only [given, Json.chosen_cons_of_ne hname, Json.chosen_cons_of_ne hdata,
      Json.chosen_cons_of_ne hwidth, Json.chosen_cons_of_ne hheight,
      Json.chosen_cons_of_ne hkind, Json.chosen_cons_of_ne hstorage]
  complete members h := by
    simp only [slots, Slot.of, List.forall_mem_cons] at h
    obtain ⟨hname, hdata, hwidth, hheight, hkind, hstorage, -⟩ := h
    simp only [given, Json.chosen_eq hname, Json.chosen_eq hdata, Json.chosen_eq hwidth,
      Json.chosen_eq hheight, Json.chosen_eq hkind, Json.chosen_eq hstorage]

theorem Asset.serves (a : Asset) (levels : Nat) :
    List.Forall₂ (Serves a.given levels) a.slots assetFields := by
  refine .cons (serves_of (takes_of_fits (takes_text a.name)) ?_) <|
    .cons (serves_of (takes_of_fits (takes_text a.dataUrl)) ?_) <|
    .cons (serves_of (takes_of_fits (takes_word a.width)) ?_) <|
    .cons (serves_of (takes_of_fits (takes_word a.height)) ?_) <|
    .cons (serves_of (takes_of_fits (takes_text a.kind)) ?_) <|
    .cons (serves_of (takes_of_fits (takes_storage a.storage)) ?_) .nil
  all_goals simp [Slot.of, given, Json.chosen_cons_of_ne]

/-- An asset is read from every document that describes it. -/
theorem Asset.takes {a : Asset} {v : Value} (h : a.DescribedBy v) {levels : Nat}
    (hdepth : v.depth ≤ levels) : Takes (assetReader levels) v a := by
  obtain ⟨members, rfl, hfills⟩ := h
  exact Json.takes_record a.serves a.restores hfills hdepth

/-! ### Projects -/

/-- A project of which some members have been read. -/
def Project.given (p : Project) (members : List (String × Value)) : Project :=
  let blank : Project := {}
  { screens := chosen members "screens" p.screens blank.screens
    active := chosen members "activeScreenId" p.active blank.active
    selected := chosen members "selectedElementId" p.selected blank.selected
    assets := chosen members "assets" p.assets blank.assets
    elementSeq := chosen members "elementSeq" p.elementSeq blank.elementSeq
    screenSeq := chosen members "screenSeq" p.screenSeq blank.screenSeq }

theorem Project.restores (p : Project) : Restores p.slots p.given {} p where
  blank := rfl
  stray m before h := by
    simp only [keysOf, slots, Slot.of, listSlot, List.map_cons, List.map_nil, List.mem_cons,
      List.not_mem_nil, not_or] at h
    obtain ⟨hscreens, hactive, hselected, hassets, helementSeq, hscreenSeq, -⟩ := h
    simp only [given, Json.chosen_cons_of_ne hscreens, Json.chosen_cons_of_ne hactive,
      Json.chosen_cons_of_ne hselected, Json.chosen_cons_of_ne hassets,
      Json.chosen_cons_of_ne helementSeq, Json.chosen_cons_of_ne hscreenSeq]
  complete members h := by
    simp only [slots, Slot.of, listSlot, List.forall_mem_cons] at h
    obtain ⟨hscreens, hactive, hselected, hassets, helementSeq, hscreenSeq, -⟩ := h
    simp only [given, Json.chosen_eq hscreens, Json.chosen_eq hactive, Json.chosen_eq hselected,
      Json.chosen_eq hassets, Json.chosen_eq helementSeq, Json.chosen_eq hscreenSeq]

theorem Project.serves (p : Project) (levels : Nat) :
    List.Forall₂ (Serves p.given levels) p.slots projectFields := by
  refine .cons (serves_listSlot (fun _ _ _ h => Screen.takes h) ?_) <|
    .cons (serves_of (takes_of_fits (takes_text p.active)) ?_) <|
    .cons (serves_of (takes_of_fits (takes_nullableText p.selected)) ?_) <|
    .cons (serves_listSlot (fun _ _ _ h => Asset.takes h) ?_) <|
    .cons (serves_of (takes_of_fits (takes_word p.elementSeq)) ?_) <|
    .cons (serves_of (takes_of_fits (takes_word p.screenSeq)) ?_) .nil
  all_goals simp [Slot.of, given, Json.chosen_cons_of_ne]

/-- A project is read from every document that describes it. -/
theorem Project.takes {p : Project} {v : Value} (h : p.DescribedBy v) {levels : Nat}
    (hdepth : v.depth ≤ levels) : Takes (projectReader levels) v p := by
  obtain ⟨members, rfl, hfills⟩ := h
  exact Json.takes_record p.serves p.restores hfills hdepth

end PanelSketch
