import DeskCheck.Expr.Eval
import DeskCheck.Proofs.Notation

/-!
# Operands that are left out

`AND` and `OR` leave out their right operand when the left one decides.  `evalEagerly` is the
evaluation that leaves nothing out: it takes both operands of every operator and applies the
operator to the two values.

What is left out cannot be told from the value.  An evaluation abridges another one if it has the
same value and makes some of the same reads, in the same order (`Evaluated.Abridges`).  Putting
evaluations one behind the other keeps this, and a decided operator abridges the one that looks at
both operands; so every evaluation abridges the eager one (`eval_abridges`).
-/

namespace DeskCheck

namespace Evaluated

variable {α β : Type}

/-- The same value, by some of the same reads. -/
structure Abridges (r full : Evaluated α) : Prop where
  value : r.value = full.value
  reads : r.reads.Sublist full.reads

theorem abridges_refl (r : Evaluated α) : r.Abridges r := ⟨rfl, List.Sublist.refl _⟩

theorem abridges_of_eq {r full : Evaluated α} (h : r = full) : r.Abridges full :=
  h ▸ abridges_refl r

/-- An evaluation whose value is known without it is left out. -/
theorem abridges_decided {value : β} (full : Evaluated α) {f : α → β} (h : ∀ v, value = f v) :
    (pure value).Abridges (full.andThen fun v => pure (f v)) :=
  ⟨h full.value, List.nil_sublist _⟩

theorem Abridges.andThen {r full : Evaluated α} {rest fullRest : α → Evaluated β}
    (h : r.Abridges full) (hrest : ∀ v, (rest v).Abridges (fullRest v)) :
    (r.andThen rest).Abridges (full.andThen fullRest) where
  value := by
    show (rest r.value).value = (fullRest full.value).value
    rw [h.value]
    exact (hrest full.value).value
  reads := by
    show (r.reads ++ (rest r.value).reads).Sublist (full.reads ++ (fullRest full.value).reads)
    rw [h.value]
    exact h.reads.append (hrest full.value).reads

end Evaluated

namespace Expr

mutual

/-- The value of an expression over a store, for which every operand is taken, and the reads in
their order. -/
def evalEagerly (store : Store) : Expr → Evaluated Value
  | .number n => .pure (.number n)
  | .text s => .pure (.text s)
  | .boolean b => .pure (.boolean b)
  | .variable name => .pure ((store.get? name).getD .missing)
  | .index name position => (evalEagerly store position).andThen (readAt store name)
  | .sequence items =>
    (evalAllEagerly store items).andThen fun values => .pure (.sequence values)
  | .binary op left right =>
    (evalEagerly store left).andThen fun a =>
      (evalEagerly store right).andThen fun b => .pure (op.apply a b)
  | .unary op operand => (evalEagerly store operand).andThen fun a => .pure (op.apply a)

/-- The values of expressions from left to right. -/
def evalAllEagerly (store : Store) : List Expr → Evaluated (List Value)
  | [] => .pure []
  | e :: rest =>
    (evalEagerly store e).andThen fun v =>
      (evalAllEagerly store rest).andThen fun vs => .pure (v :: vs)

end

open Evaluated

variable {store : Store}

theorem evalAll_abridges {items : List Expr}
    (h : ∀ e ∈ items, (eval store e).Abridges (evalEagerly store e)) :
    (evalAll store items).Abridges (evalAllEagerly store items) := by
  induction items with
  | nil => exact abridges_refl _
  | cons e rest ih =>
    obtain ⟨he, hrest⟩ := List.forall_mem_cons.mp h
    rw [evalAll, evalAllEagerly]
    exact he.andThen fun v => (ih hrest).andThen fun vs => abridges_refl _

/-- An operator takes the values of its operands, unless the first one decides. -/
theorem binary_abridges (op : BinaryOp) {left right : Expr}
    (hleft : (eval store left).Abridges (evalEagerly store left))
    (hright : (eval store right).Abridges (evalEagerly store right)) :
    (eval store (.binary op left right)).Abridges (evalEagerly store (.binary op left right)) := by
  have hboth : ((eval store left).andThen fun a =>
      (eval store right).andThen fun b => .pure (op.apply a b)).Abridges
        (evalEagerly store (.binary op left right)) := by
    rw [evalEagerly]
    exact hleft.andThen fun a => hright.andThen fun b => abridges_refl _
  cases op with
  | and =>
    rw [eval, evalEagerly]
    refine hleft.andThen fun a => ?_
    by_cases ha : a.isTruthy = true
    · rw [if_pos ha]
      exact hright.andThen fun b => abridges_of_eq (by simp [BinaryOp.apply, ha])
    · rw [if_neg ha]
      exact abridges_decided _ fun b => by simp [BinaryOp.apply, ha]
  | or =>
    rw [eval, evalEagerly]
    refine hleft.andThen fun a => ?_
    by_cases ha : a.isTruthy = true
    · rw [if_pos ha]
      exact abridges_decided _ fun b => by simp [BinaryOp.apply, ha]
    · rw [if_neg ha]
      exact hright.andThen fun b => abridges_of_eq (by simp [BinaryOp.apply, ha])
  | _ => exact hboth

/-- **Leaving out operands never changes a value.**  Every expression has the value that it has by
way of all its parts, and its reads are some of the reads which that takes, in the same order. -/
theorem eval_abridges (store : Store) (e : Expr) :
    (eval store e).Abridges (evalEagerly store e) := by
  induction e with
  | number n => exact abridges_refl _
  | text s => exact abridges_refl _
  | boolean b => exact abridges_refl _
  | name s => exact abridges_refl _
  | index s inner ih =>
    rw [eval, evalEagerly]
    exact ih.andThen fun v => abridges_refl _
  | sequence items ih =>
    rw [eval, evalEagerly]
    exact (evalAll_abridges ih).andThen fun vs => abridges_refl _
  | binary op left right hleft hright => exact binary_abridges op hleft hright
  | unary op operand ih =>
    rw [eval, evalEagerly]
    exact ih.andThen fun v => abridges_refl _

/-- A left operand that decides leaves a read out. -/
example :
    let e : Expr := .binary .or (.boolean true) (.index "xs" (.boolean false))
    let store := Store.empty.assign "xs" (.sequence [.text "a"])
    (e.eval store).reads.map Access.toText = [] ∧
      (e.evalEagerly store).reads.map Access.toText = ["xs[0] -> a"] := by
  decide +kernel

end Expr
end DeskCheck
