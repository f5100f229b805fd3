import PanelSketch.Proofs.Text.FreshName
import PanelSketch.Workspace.Numbering

/-!
# Counters Stay Ahead

A counter is ahead of an id when the id carries no number, or a number whose
successor the counter has reached. Being ahead is all that a counter owes to the
ids it was shown or has issued, also when it has stopped at its greatest value:
there the successor of a number is the greatest value itself.

A counter never falls back, so it stays ahead of what it was ahead of. The id it
issues carries the number it stood at, or no number at all, because a second
number behind an underscore is not read as part of the first. So a counter that
moves on is ahead of the id it has just issued, too.

A counter governs a list of ids when it can go on from there: the ids are not
empty and do not repeat, and it is ahead of each. Issuing one more id, putting
the ids into another order and forgetting some of them all keep it that way.

## Main definitions

* `Counter.Ahead`: What a counter owes to an id.
* `Counter.observeAll`: The counter after a list of ids has been seen.
* `Counter.Governs`: What a counter owes to the ids of one sort.

## Theorems

* `Counter.toNat_successor`, `Counter.toNat_larger`: Words as numbers.
* `Counter.numberOf?_idOf`: The number of an id reads back.
* `Counter.numberOf?_numbered`: An id with a second number carries none.
* `Counter.Ahead.mono`: A greater counter is ahead as well.
* `Counter.ahead_issue`: A counter is ahead of the id it has issued.
* `Counter.ahead_observe`: A counter is ahead of the id it was shown.
* `Counter.observe_eq_self`: What a counter is ahead of does not move it.
* `Counter.ahead_observeAll`, `Counter.observeAll_eq_self`: The same for a list of
  ids.
* `Counter.Governs.issue`: One more id is governed as well.
* `Counter.Governs.subperm`: So are some of the ids in any order.
-/

namespace PanelSketch

namespace Counter

theorem toNat_successor (n : UInt32) :
    (successor n).toNat = min (n.toNat + 1) (UInt32.size - 1) := by
  have hlt := n.toNat_lt
  unfold successor
  simp only [UInt32.size]
  split
  · rename_i h
    rw [UInt32.toNat_add, UInt32.toNat_one, Nat.mod_eq_of_lt h]
    omega
  · omega

theorem toNat_larger (m n : UInt32) : (larger m n).toNat = max m.toNat n.toNat := by
  unfold larger
  split
  · rename_i h
    rw [UInt32.le_iff_toNat_le] at h
    omega
  · rename_i h
    rw [UInt32.le_iff_toNat_le] at h
    omega

theorem le_successor (n : UInt32) : n ≤ successor n := by
  rw [UInt32.le_iff_toNat_le, toNat_successor, UInt32.size]
  have hlt := n.toNat_lt
  omega

theorem larger_eq_left {m n : UInt32} (h : n ≤ m) : larger m n = m := by
  apply UInt32.toNat_inj.mp
  rw [UInt32.le_iff_toNat_le] at h
  rw [toNat_larger]
  omega

theorem one_le_start (n : UInt32) : 1 ≤ (start n).next := by
  rw [UInt32.le_iff_toNat_le, start, toNat_larger]
  omega

/-! ### Numbers of ids -/

theorem numberOf?_append (stem rest : String) :
    numberOf? stem (stem ++ rest) = Text.word? rest := by
  have hp : stem.toList.isPrefixOf (stem.toList ++ rest.toList) = true :=
    List.isPrefixOf_iff_prefix.mpr (List.prefix_append _ _)
  rw [numberOf?, String.toList_append, if_pos hp, ← String.length_toList, List.drop_left,
    String.ofList_toList]

theorem unsigned?_of_isDigit {c : Char} (h : c.isDigit = true) (cs : List Char) :
    Text.unsigned? (c :: cs) = Text.natural? (c :: cs) := by
  unfold Text.unsigned?
  split
  · rename_i hc
    rw [List.cons.injEq] at hc
    -- A sign is no digit.
    rw [hc.1] at h
    exact absurd h (by decide)
  · rfl

/-- A text that starts with a printed number is read without a sign. -/
theorem unsigned?_toDigits_append (n : Nat) (cs : List Char) :
    Text.unsigned? (Nat.toDigits 10 n ++ cs) = Text.natural? (Nat.toDigits 10 n ++ cs) := by
  rcases hd : Nat.toDigits 10 n with _ | ⟨d, ds⟩
  · exact absurd hd Nat.toDigits_ne_nil
  · have hdigit : d.isDigit = true :=
      Nat.isDigit_of_mem_toDigits (b := 10) (n := n) (by omega) (by omega)
        (by rw [hd]; exact List.mem_cons_self)
    rw [List.cons_append]
    exact unsigned?_of_isDigit hdigit _

theorem numberOf?_idOf (stem : String) (n : UInt32) : numberOf? stem (idOf stem n) = some n := by
  have hread : Text.unsigned? n.toNat.repr.toList = some n.toNat := by
    have h := unsigned?_toDigits_append n.toNat []
    rw [List.append_nil, ← Nat.toList_repr] at h
    rw [h, Text.natural?_repr]
  rw [idOf, numberOf?_append, Text.word?, hread, Option.bind_some, if_pos n.toNat_lt,
    UInt32.ofNat_toNat]

theorem numberOf?_numbered (stem : String) (n : UInt32) (k : Nat) :
    numberOf? stem (Text.numbered (idOf stem n) k) = none := by
  have happ : Text.numbered (idOf stem n) k = stem ++ (n.toNat.repr ++ "_" ++ k.repr) := by
    simp only [Text.numbered, idOf, String.append_assoc]
  have hlist : (n.toNat.repr ++ "_" ++ k.repr).toList
      = Nat.toDigits 10 n.toNat ++ '_' :: Nat.toDigits 10 k := by
    rw [← Nat.toList_repr]
    exact Text.toList_numbered n.toNat.repr k
  have hbad : Text.natural? (Nat.toDigits 10 n.toNat ++ '_' :: Nat.toDigits 10 k) = none := by
    rw [Text.natural?, if_neg]
    -- The underscore would have to be a digit.
    rintro ⟨_, hall⟩
    have := List.all_eq_true.mp hall '_' (List.mem_append_right _ List.mem_cons_self)
    exact absurd this (by decide)
  rw [happ, numberOf?_append, Text.word?, hlist, unsigned?_toDigits_append, hbad, Option.bind_none]

theorem idOf_ne_empty (stem : String) (n : UInt32) : idOf stem n ≠ "" := by
  intro h
  have hl := congrArg String.toList h
  rw [idOf, String.toList_append, Nat.toList_repr] at hl
  exact List.append_ne_nil_of_right_ne_nil _ Nat.toDigits_ne_nil hl

/-! ### Being ahead -/

/-- The id carries no number, or one whose successor the counter has reached; the
    greatest word counts as its own successor. -/
def Ahead (stem : String) (c : Counter) (id : String) : Prop :=
  ∀ n, numberOf? stem id = some n → min (n.toNat + 1) (UInt32.size - 1) ≤ c.next.toNat

theorem ahead_iff {stem id : String} {c : Counter} :
    c.Ahead stem id ↔ ∀ n, numberOf? stem id = some n → successor n ≤ c.next := by
  simp only [Ahead, UInt32.le_iff_toNat_le, toNat_successor]

theorem Ahead.mono {stem id : String} {c c' : Counter} (h : c.Ahead stem id)
    (hle : c.next ≤ c'.next) : c'.Ahead stem id :=
  ahead_iff.mpr fun n hn => UInt32.le_trans (ahead_iff.mp h n hn) hle

theorem le_next_issue (stem : String) (taken : List String) (c : Counter) :
    c.next ≤ (c.issue stem taken).2.next :=
  le_successor c.next

theorem ahead_issue (stem : String) (taken : List String) (c : Counter) :
    (c.issue stem taken).2.Ahead stem (c.issue stem taken).1 := by
  refine ahead_iff.mpr fun n hn => ?_
  rcases Text.freshName_cases (idOf stem c.next) taken with hname | ⟨k, hname⟩
  · -- The id carries the number the counter stood at, and the counter has moved on.
    rw [issue, hname, numberOf?_idOf, Option.some.injEq] at hn
    rw [← hn]
    exact UInt32.le_refl _
  · -- A second number hides the first, so nothing is owed.
    rw [issue, hname, numberOf?_numbered] at hn
    exact absurd hn (Option.some_ne_none n).symm

theorem issue_not_mem (stem : String) (taken : List String) (c : Counter) :
    (c.issue stem taken).1 ∉ taken :=
  Text.freshName_not_mem _ taken

theorem issue_ne_empty (stem : String) (taken : List String) (c : Counter) :
    (c.issue stem taken).1 ≠ "" :=
  Text.freshName_ne_empty taken (idOf_ne_empty stem c.next)

theorem issue_congr {stem : String} {taken taken' : List String} (c : Counter)
    (h : ∀ id, id ∈ taken ↔ id ∈ taken') : c.issue stem taken = c.issue stem taken' := by
  rw [issue, issue, Text.freshName_congr h]

theorem le_next_observe (stem id : String) (c : Counter) : c.next ≤ (c.observe stem id).next := by
  unfold observe
  split
  · rw [UInt32.le_iff_toNat_le, toNat_larger]
    omega
  · exact UInt32.le_refl _

theorem ahead_observe (stem id : String) (c : Counter) : (c.observe stem id).Ahead stem id := by
  refine ahead_iff.mpr fun n hn => ?_
  rw [observe, hn, UInt32.le_iff_toNat_le, toNat_larger]
  omega

theorem observe_eq_self {stem id : String} {c : Counter} (h : c.Ahead stem id) :
    c.observe stem id = c := by
  unfold observe
  split
  · rename_i n hn
    rw [larger_eq_left (ahead_iff.mp h n hn)]
  · rfl

/-! ### Seeing a list of ids -/

/-- The counter after ids have been seen. -/
def observeAll (stem : String) (ids : List String) (c : Counter) : Counter :=
  ids.foldl (fun c id => c.observe stem id) c

theorem le_next_observeAll (stem : String) (ids : List String) (c : Counter) :
    c.next ≤ (c.observeAll stem ids).next := by
  induction ids generalizing c with
  | nil => exact UInt32.le_refl _
  | cons id ids ih => exact UInt32.le_trans (le_next_observe stem id c) (ih (c.observe stem id))

theorem ahead_observeAll (stem : String) {ids : List String} (c : Counter) {id : String}
    (hid : id ∈ ids) : (c.observeAll stem ids).Ahead stem id := by
  induction ids generalizing c with
  | nil => exact absurd hid List.not_mem_nil
  | cons first ids ih =>
      rcases List.mem_cons.mp hid with rfl | hid
      · -- What is seen afterwards does not take the counter back.
        exact (ahead_observe stem id c).mono (le_next_observeAll stem ids _)
      · exact ih (c.observe stem first) hid

theorem observeAll_eq_self {stem : String} {ids : List String} {c : Counter}
    (h : ∀ id ∈ ids, c.Ahead stem id) : c.observeAll stem ids = c := by
  induction ids with
  | nil => rfl
  | cons id ids ih =>
      rw [List.forall_mem_cons] at h
      rw [observeAll, List.foldl_cons, observe_eq_self h.1]
      exact ih h.2

theorem start_eq_self {c : Counter} (h : 1 ≤ c.next) : start c.next = c := by
  have hpos : larger 1 c.next = c.next := by
    unfold larger
    rw [if_pos h]
  rw [start, hpos]

/-! ### Governing a list of ids -/

/-- Ids of one sort that a counter can go on from. -/
structure Governs (stem : String) (c : Counter) (ids : List String) : Prop where
  nodup : ids.Nodup
  empty_not_mem : "" ∉ ids
  pos : 1 ≤ c.next
  ahead : ∀ id ∈ ids, c.Ahead stem id

theorem Governs.issue {stem : String} {c : Counter} {ids taken : List String}
    (h : c.Governs stem ids) (htaken : ids ⊆ taken) :
    (c.issue stem taken).2.Governs stem (ids ++ [(c.issue stem taken).1]) where
  nodup := by
    rw [← List.concat_eq_append, List.nodup_concat]
    exact ⟨fun hm => issue_not_mem stem taken c (htaken hm), h.nodup⟩
  empty_not_mem := by
    rw [List.mem_append, List.mem_singleton, not_or]
    exact ⟨h.empty_not_mem, (issue_ne_empty stem taken c).symm⟩
  pos := UInt32.le_trans h.pos (le_next_issue stem taken c)
  ahead id hid := by
    rw [List.mem_append, List.mem_singleton] at hid
    rcases hid with hid | rfl
    · exact (h.ahead id hid).mono (le_next_issue stem taken c)
    · exact ahead_issue stem taken c

theorem Governs.subperm {stem : String} {c : Counter} {ids ids' : List String}
    (h : c.Governs stem ids) (hsub : ids'.Subperm ids) : c.Governs stem ids' where
  nodup := by
    rcases hsub with ⟨some, hperm, hsub⟩
    exact hperm.nodup_iff.mp (h.nodup.sublist hsub)
  empty_not_mem hm := h.empty_not_mem (hsub.subset hm)
  pos := h.pos
  ahead id hid := h.ahead id (hsub.subset hid)

end Counter

end PanelSketch
