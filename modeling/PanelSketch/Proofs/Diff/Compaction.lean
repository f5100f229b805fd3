import PanelSketch.Diff.Compaction
import PanelSketch.Proofs.Diff.Walk

/-!
# Compaction Keeps a Walk

Compaction makes a script easier to read and does not change where it leads. Every step
replaces two or three edits that stand next to each other by edits that lead from the same
pair of places to the same pair of places.

A deletion and an insertion change places because neither moves the walk in the text of
the other. An insertion passes kept lines that end like itself: the lines it has in the
new text are then others, but they read alike, and so do the lines that are kept on its
other side. Two insertions become one because the second begins where the first ends.

Moving one edit is many steps of that sort, and compacting a script is moving one edit
after the other. How many of them are moved, and in which order, plays no part.

## Main definitions

* `Cursor.edits`: The script that a cursor stands in.

## Theorems

* `walks_keepAbove`, `walks_keepBelow`: Kept lines put to what stands there.
* `walks_lift`, `walks_sink`: An insertion passes kept lines.
* `walks_raise`, `walks_lower`: An edit moved up, or down.
* `walks_compact`: A script with all changes moved.
* `compact_eq_self`: A script that only keeps lines stays as it is.
-/

namespace PanelSketch.Diff

/-- The script that a cursor stands in. -/
def Cursor.edits (c : Cursor) : List Edit :=
  c.above.reverse ++ c.here :: c.below

variable {r : Revision} {o n o' n' : Nat}

/-- What stands at the end of a script may be replaced by what leads to the same place. -/
theorem Walks.behind {front edits edits' : List Edit} (h : Walks r o n (front ++ edits) o' n')
    (himp : ∀ a b, Walks r a b edits o' n' → Walks r a b edits' o' n') :
    Walks r o n (front ++ edits') o' n' := by
  rcases walks_append.mp h with ⟨a, b, hfront, hback⟩
  exact hfront.append (himp a b hback)

/-- A cursor has the nearest edit above it first. -/
theorem walks_passed {edit : Edit} {above edits : List Edit} :
    Walks r o n ((edit :: above).reverse ++ edits) o' n'
      ↔ Walks r o n (above.reverse ++ edit :: edits) o' n' := by
  rw [List.reverse_cons, List.append_assoc, List.singleton_append]

/-! ### Changes meet -/

/-- Keeping no lines leads nowhere. -/
theorem walks_keep_zero {a b : Nat} {edits : List Edit}
    (h : Walks r o n (.keep a b 0 :: edits) o' n') : Walks r o n edits o' n' :=
  h.2.2.2

theorem walks_cons_keep_zero {edit : Edit} {a b : Nat} {edits : List Edit}
    (h : Walks r o n ([edit] ++ .keep a b 0 :: edits) o' n') :
    Walks r o n ([edit] ++ edits) o' n' :=
  h.behind fun _ _ => walks_keep_zero

/-- A deletion and an insertion do not get in each other's way. -/
theorem walks_exchange {a b c d length length' : Nat} {edits : List Edit} :
    Walks r o n (.delete a length b :: .insert c d length' :: edits) o' n'
      ↔ Walks r o n (.insert c d length' :: .delete a length b :: edits) o' n' :=
  and_left_comm

theorem walks_insert_insert {a b c d length length' : Nat} {edits : List Edit}
    (h : Walks r o n (.insert a b length :: .insert c d length' :: edits) o' n') :
    Walks r o n (.insert a b (length + length') :: edits) o' n' := by
  rcases h with ⟨rfl, -, h⟩
  refine ⟨rfl, ?_⟩
  rwa [← Nat.add_assoc]

theorem walks_delete_delete {a b c d length length' : Nat} {edits : List Edit}
    (h : Walks r o n (.delete a length b :: .delete c length' d :: edits) o' n') :
    Walks r o n (.delete a (length + length') b :: edits) o' n' := by
  rcases h with ⟨rfl, -, h⟩
  refine ⟨rfl, ?_⟩
  rwa [← Nat.add_assoc]

/-! ### Insertions pass kept lines -/

theorem walks_keepAbove {s : Nat} {below : List Edit} (hagree : r.AgreeFrom o n s)
    (h : Walks r (o + s) (n + s) below o' n') : Walks r o n (keepAbove s o n below) o' n' := by
  unfold keepAbove
  split
  · -- The kept lines below begin where those put to them end.
    rename_i old new length edits
    rcases h with ⟨rfl, rfl, hlength, hrest⟩
    rw [Nat.add_sub_cancel, Nat.add_sub_cancel, Nat.add_comm]
    refine ⟨rfl, rfl, hagree.append hlength, ?_⟩
    rwa [← Nat.add_assoc, ← Nat.add_assoc]
  · exact ⟨rfl, rfl, hagree, h⟩

theorem walks_keepBelow {s a b : Nat} {above : List Edit} (hagree : r.AgreeFrom a b s)
    (h : Walks r o n above.reverse a b) :
    Walks r o n (keepBelow s a b above).reverse (a + s) (b + s) := by
  unfold keepBelow
  split
  · rename_i old new length edits
    rw [List.reverse_cons, walks_append] at h
    rcases h with ⟨c, d, hfront, rfl, rfl, hlength, rfl, rfl⟩
    rw [List.reverse_cons, Nat.add_assoc, Nat.add_assoc]
    exact hfront.append ⟨rfl, rfl, hlength.append hagree, rfl, rfl⟩
  · rw [List.reverse_cons]
    exact h.append ⟨rfl, rfl, hagree, rfl, rfl⟩

theorem liftOver_le (r : Revision) (keptOldEnd keptLength newEnd newLength : Nat) :
    liftOver r keptOldEnd keptLength newEnd newLength ≤ keptLength :=
  Nat.min_le_left _ _

theorem agreeFrom_liftOver (r : Revision) (keptOldEnd keptLength newEnd newLength : Nat) :
    r.AgreeFrom (keptOldEnd - liftOver r keptOldEnd keptLength newEnd newLength)
      (newEnd - liftOver r keptOldEnd keptLength newEnd newLength)
      (liftOver r keptOldEnd keptLength newEnd newLength) := by
  -- The limit of the search already keeps it from going on in front of the kept lines.
  have hlimit : r.commonSuffix keptOldEnd newEnd (min keptLength newLength) ≤ keptLength :=
    Nat.le_trans (r.commonSuffix_le _ _ _) (Nat.min_le_left _ _)
  rw [liftOver, Nat.min_eq_right hlimit]
  exact (r.agreeFrom_commonSuffix _ _ _).2.2

theorem agreeFrom_dropOver (r : Revision) (keptOld keptLength new newLength : Nat) :
    r.AgreeFrom keptOld new (dropOver r keptOld keptLength new newLength) :=
  (r.agreeFrom_commonPrefix _ _ _).take (Nat.min_le_right _ _)

/-- An insertion goes up over kept lines that end like itself. -/
theorem walks_lift {po pn plen a b len : Nat} {below : List Edit}
    (h : Walks r o n (.keep po pn plen :: .insert a b len :: below) o' n') :
    let s := liftOver r (po + plen) plen (b + len) len
    Walks r o n (.keep po pn (plen - s) :: .insert (a - s) (b - s) len
      :: keepAbove s (po + plen - s) (b + len - s) below) o' n' := by
  intro s
  have hs : s ≤ plen := liftOver_le r _ _ _ _
  have hagree : r.AgreeFrom (po + plen - s) (b + len - s) s := agreeFrom_liftOver r _ _ _ _
  rcases h with ⟨rfl, rfl, hkept, rfl, hbelow⟩
  refine ⟨rfl, rfl, hkept.take (Nat.sub_le _ _), by omega, ?_⟩
  have hold : po + (plen - s) = po + plen - s := by omega
  have hnew : pn + (plen - s) + len = pn + plen + len - s := by omega
  rw [hold, hnew]
  refine walks_keepAbove hagree ?_
  rwa [Nat.sub_add_cancel (by omega), Nat.sub_add_cancel (by omega)]

/-- An insertion goes down over kept lines that begin like itself. -/
theorem walks_sink {above below : List Edit} {no nn nlen a b len : Nat}
    (h : Walks r o n (above.reverse ++ .insert a b len :: .keep no nn nlen :: below) o' n') :
    let s := dropOver r no nlen b len
    Walks r o n ((keepBelow s no b above).reverse ++ .insert (a + s) (b + s) len
      :: .keep (no + s) (nn + s) (nlen - s) :: below) o' n' := by
  intro s
  have hs : s ≤ nlen := Nat.min_le_left _ _
  have hagree : r.AgreeFrom no b s := agreeFrom_dropOver r _ _ _ _
  rcases walks_append.mp h with ⟨c, d, habove, rfl, rfl, rfl, hkept, hbelow⟩
  refine (walks_keepBelow hagree habove).append ⟨rfl, rfl, by omega, ?_, ?_⟩
  · have hrest : r.AgreeFrom (no + s) (b + len + s) (nlen - s) := hkept.drop
    rwa [show b + s + len = b + len + s by omega]
  · rwa [show no + s + (nlen - s) = no + nlen by omega,
      show b + s + len + (nlen - s) = b + len + nlen by omega]

/-! ### Whole scripts -/

/-- An edit goes up one step after the other; each of them leads where the edits led
    before it. -/
theorem walks_raise {above : List Edit} {here : Edit} {below : List Edit}
    (h : Walks r o n (above.reverse ++ here :: below) o' n') :
    Walks r o n (raise r above here below).edits o' n' := by
  fun_induction raise r above here below with
  | case1 _ _ _ _ _ _ _ _ _ _ _ _ ih =>
      -- Some of the kept lines are passed, and the others stay above.
      rw [walks_passed] at h
      exact ih (walks_passed.mpr (h.behind fun _ _ => walks_lift))
  | case2 _ po pn plen _ _ _ _ s _ _ hs ih =>
      rw [walks_passed] at h
      refine ih (h.behind fun a b hhere => ?_)
      have hlifted : Walks r a b (.keep po pn (plen - s) :: _) o' n' := walks_lift hhere
      -- The insertion has passed the kept lines as a whole.
      rw [Nat.sub_eq_zero_of_le (Nat.not_lt.mp hs)] at hlifted
      exact walks_keep_zero hlifted
  | case3 _ _ _ _ _ _ _ _ _ ih | case5 _ _ _ _ _ _ _ ih =>
      -- There is nothing in the kept lines, and they are dropped.
      rw [walks_passed] at h
      exact ih (h.behind fun _ _ => walks_keep_zero)
  | case4 | case6 | case11 =>
      -- The edit has come as far as it can.
      exact h
  | case7 _ _ _ _ _ _ _ _ ih =>
      -- A deletion and an insertion, in either order, change places.
      rw [walks_passed] at h
      exact ih (h.behind fun _ _ => walks_exchange.mp)
  | case8 _ _ _ _ _ _ _ _ ih =>
      rw [walks_passed] at h
      exact ih (h.behind fun _ _ => walks_exchange.mpr)
  | case9 _ _ _ _ _ _ _ _ ih =>
      -- Two changes of one sort become one.
      rw [walks_passed] at h
      exact ih (h.behind fun _ _ => walks_insert_insert)
  | case10 _ _ _ _ _ _ _ _ ih =>
      rw [walks_passed] at h
      exact ih (h.behind fun _ _ => walks_delete_delete)

/-- An edit goes down by the same steps; only what it passes stands on the other side. -/
theorem walks_lower {above : List Edit} {here : Edit} {below : List Edit}
    (h : Walks r o n (above.reverse ++ here :: below) o' n') :
    Walks r o n (lower r above here below).edits o' n' := by
  fun_induction lower r above here below with
  | case1 _ _ _ _ _ _ _ _ _ _ _ _ ih => exact ih (walks_sink h)
  | case2 _ no nn nlen below _ _ _ s _ _ hs ih =>
      have hsunk : Walks r o n (_ ++ _ :: .keep (no + s) (nn + s) (nlen - s) :: below) o' n' :=
        walks_sink h
      rw [Nat.sub_eq_zero_of_le (Nat.not_lt.mp hs)] at hsunk
      exact ih (hsunk.behind fun _ _ => walks_cons_keep_zero)
  | case3 _ _ _ _ _ _ _ _ _ ih | case5 _ _ _ _ _ _ _ ih =>
      exact ih (h.behind fun _ _ => walks_cons_keep_zero)
  | case4 | case6 | case11 => exact h
  | case7 _ _ _ _ _ _ _ _ ih =>
      exact ih (walks_passed.mpr (h.behind fun _ _ => walks_exchange.mpr))
  | case8 _ _ _ _ _ _ _ _ ih =>
      exact ih (walks_passed.mpr (h.behind fun _ _ => walks_exchange.mp))
  | case9 _ _ _ _ _ _ _ _ ih => exact ih (h.behind fun _ _ => walks_insert_insert)
  | case10 _ _ _ _ _ _ _ _ ih => exact ih (h.behind fun _ _ => walks_delete_delete)

/-- Moving edits leaves the script between the same places, also when the turns run out
    before the script does. -/
theorem walks_settle {sort : Edit → Bool} {turns : Nat} {passed edits : List Edit}
    (h : Walks r o n (passed.reverse ++ edits) o' n') :
    Walks r o n (settle r sort turns passed edits) o' n' := by
  fun_induction settle r sort turns passed edits with
  | case1 => rwa [List.append_nil] at h
  | case2 => exact h
  | case3 turns passed edit edits _ raised c ih =>
      have hraised : Walks r o n raised.edits o' n' := walks_raise h
      have hlowered : Walks r o n c.edits o' n' := walks_lower hraised
      exact ih (walks_passed.mpr hlowered)
  | case4 turns passed edit edits _ ih => exact ih (walks_passed.mpr h)

theorem walks_settleAll {sort : Edit → Bool} {edits : List Edit} (h : Walks r o n edits o' n') :
    Walks r o n (settleAll r sort edits) o' n' :=
  walks_settle h

/-- A compacted script leads where the script led. -/
theorem walks_compact {edits : List Edit} (h : Walks r o n edits o' n') :
    Walks r o n (compact r edits) o' n' :=
  walks_settleAll (walks_settleAll h)

theorem settle_eq_self {sort : Edit → Bool} {edits : List Edit} (h : ∀ e ∈ edits, sort e = false)
    (turns : Nat) (passed : List Edit) :
    settle r sort turns passed edits = passed.reverse ++ edits := by
  induction edits generalizing turns passed with
  | nil => cases turns <;> exact (List.append_nil _).symm
  | cons edit edits ih =>
      rcases List.forall_mem_cons.mp h with ⟨hedit, hedits⟩
      cases turns with
      | zero => rfl
      | succ turns =>
          rw [settle, if_neg (by rw [hedit]; exact Bool.false_ne_true), ih hedits,
            List.reverse_cons, List.append_assoc, List.singleton_append]

/-- A script that only keeps lines is compact. -/
theorem compact_eq_self {edits : List Edit}
    (h : ∀ e ∈ edits, e.isDelete = false ∧ e.isInsert = false) : compact r edits = edits := by
  have hdelete : settleAll r Edit.isDelete edits = edits :=
    settle_eq_self (fun e he => (h e he).1) _ []
  have hinsert : settleAll r Edit.isInsert edits = edits :=
    settle_eq_self (fun e he => (h e he).2) _ []
  rw [compact, hdelete, hinsert]

end PanelSketch.Diff
