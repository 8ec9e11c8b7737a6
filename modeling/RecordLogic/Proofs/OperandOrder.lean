import RecordLogic.Predicate.Basic
import RecordLogic.Proofs.Evaluation
import RecordLogic.Proofs.Meetings
import RecordLogic.Proofs.Shape

/-!
# Comparisons with their operands in the other order

A comparison can be read from both sides: with its operands and its relation turned round it is accepted just as
well and has the same answer. Nothing has to be assumed of doubles for that: their order and their equality can be
read from both sides too.
-/

namespace RecordLogic

/-! ## Values -/

theorem unpacked_compare_swap (a b : Float.Model.UnpackedFloat) : a.compare b = (b.compare a).map Ordering.swap := by
  cases a with
  | infinity s => cases b with
    | finite t m e h => cases s <;> cases t <;> rfl
    | infinity t => cases s <;> cases t <;> rfl
    | zero t => cases s <;> rfl
    | notANumber => rfl
  | notANumber => cases b <;> rfl
  | zero s => cases b with
    | finite t m e h => cases t <;> rfl
    | infinity t => cases t <;> rfl
    | zero t => rfl
    | notANumber => rfl
  | finite s m e h => cases b with
    | finite t n f h' =>
      have hswap : ((compare e f).then (compare m n)) = ((compare f e).then (compare n m)).swap := by
        rw [Ordering.swap_then, ← Int.compare_swap f e, ← Nat.compare_swap n m]
      cases s with
      | positive => cases t with
        | positive => exact congrArg some hswap
        | negative => rfl
      | negative => cases t with
        | positive => rfl
        | negative => exact congrArg some (congrArg Ordering.swap hswap)
    | infinity t => cases s <;> cases t <;> rfl
    | zero t => cases s <;> rfl
    | notANumber => cases s <;> rfl

theorem float_beq_comm (a b : Float) : (a == b) = (b == a) := by
  show (a.toModel.unpack.compare b.toModel.unpack == some .eq) = (b.toModel.unpack.compare a.toModel.unpack == some .eq)
  rw [unpacked_compare_swap]
  cases b.toModel.unpack.compare a.toModel.unpack with
  | none => rfl
  | some o => cases o <;> rfl

namespace Value

theorem orderFloats_eq (a b : Float) : orderFloats a b = a.toModel.unpack.compare b.toModel.unpack := by
  have hlt : ∀ x y : Float, x < y ↔ x.toModel.unpack.compare y.toModel.unpack = some .lt := by
    intro x y
    show decide (x.toModel < y.toModel) = true ↔ _
    rw [decide_eq_true_iff]
    show (x.toModel.unpack.compare y.toModel.unpack == some .lt) = true ↔ _
    exact beq_iff_eq
  have heq : (a == b) = true ↔ a.toModel.unpack.compare b.toModel.unpack = some .eq := by
    show (a.toModel.unpack.compare b.toModel.unpack == some .eq) = true ↔ _
    exact beq_iff_eq
  unfold orderFloats
  simp only [hlt, heq, unpacked_compare_swap b.toModel.unpack]
  cases a.toModel.unpack.compare b.toModel.unpack with
  | none => simp
  | some o => cases o <;> simp

theorem orderFloats_swap (a b : Float) : orderFloats a b = (orderFloats b a).map Ordering.swap := by
  rw [orderFloats_eq, orderFloats_eq]
  exact unpacked_compare_swap _ _

end Value

theorem Decimal.order_swap (a b : Decimal) : a.order b = (b.order a).swap := by
  unfold order
  exact (Int.compare_swap _ _).symm

theorem DateTime.order_swap (a b : DateTime) : a.order b = (b.order a).swap := by
  unfold order
  rw [Ordering.swap_then, Ordering.swap_then, Int.compare_swap, Nat.compare_swap, Nat.compare_swap]

namespace Value

theorem order?_swap (x y : Value) : order? x y = (order? y x).map Ordering.swap := by
  cases x with
  | int a => cases y with
    | int b => exact congrArg some (Int.compare_swap b a).symm
    | _ => rfl
  | float a => cases y with
    | float b => exact orderFloats_swap a b
    | _ => rfl
  | decimal a => cases y with
    | decimal b => exact congrArg some (a.order_swap b)
    | _ => rfl
  | dateTime a => cases y with
    | dateTime b => exact congrArg some (a.order_swap b)
    | _ => rfl
  | timeSpan a => cases y with
    | timeSpan b => exact congrArg some (Int.compare_swap b.nanoseconds a.nanoseconds).symm
    | _ => rfl
  | _ => cases y <;> rfl

theorem same_of_shape_ne {x y : Value} (h : x.shape ≠ y.shape) : x.same y = false := by
  unfold same
  split <;> simp_all [shape]

theorem same_comm_of_shape_ne {x y : Value} (h : x.shape ≠ y.shape) : x.same y = y.same x := by
  rw [same_of_shape_ne h, same_of_shape_ne h.symm]

mutual

theorem same_comm : ∀ x y : Value, x.same y = y.same x
  | .null, y => by
    cases y with
    | null => rfl
    | _ => exact same_comm_of_shape_ne nofun
  | .bool a, y => by
    cases y with
    | bool b => exact Bool.beq_comm
    | _ => exact same_comm_of_shape_ne nofun
  | .int a, y => by
    cases y with
    | int b => exact Bool.beq_comm
    | _ => exact same_comm_of_shape_ne nofun
  | .float a, y => by
    cases y with
    | float b => exact float_beq_comm a b
    | _ => exact same_comm_of_shape_ne nofun
  | .decimal a, y => by
    cases y with
    | decimal b =>
      rw [same, same, Decimal.same, Decimal.same, a.order_swap b]
      cases b.order a <;> rfl
    | _ => exact same_comm_of_shape_ne nofun
  | .string a, y => by
    cases y with
    | string b => exact Bool.beq_comm
    | _ => exact same_comm_of_shape_ne nofun
  | .dateTime a, y => by
    cases y with
    | dateTime b => exact Bool.beq_comm
    | _ => exact same_comm_of_shape_ne nofun
  | .timeSpan a, y => by
    cases y with
    | timeSpan b => exact Bool.beq_comm
    | _ => exact same_comm_of_shape_ne nofun
  | .guid a, y => by
    cases y with
    | guid b => exact Bool.beq_comm
    | _ => exact same_comm_of_shape_ne nofun
  | .enum a, y => by
    cases y with
    | enum b => exact Bool.beq_comm
    | _ => exact same_comm_of_shape_ne nofun
  | .array as, y => by
    cases y with
    | array bs =>
      rw [same, same]
      exact sameAll_comm as bs
    | _ => exact same_comm_of_shape_ne nofun
  | .record ⟨m, as⟩, y => by
    cases y with
    | record r =>
      cases r with
      | mk n bs => rw [same, same, sameAll_comm as bs, Bool.beq_comm]
    | _ => exact same_comm_of_shape_ne nofun

theorem sameAll_comm : ∀ xs ys : List Value, sameAll xs ys = sameAll ys xs
  | [], [] => rfl
  | [], _ :: _ => rfl
  | _ :: _, [] => rfl
  | x :: xs, y :: ys => by
    rw [sameAll, sameAll, same_comm x y, sameAll_comm xs ys]

end

end Value

def Relation.mirror : Relation → Relation
  | .equal => .equal
  | .notEqual => .notEqual
  | .less => .greater
  | .greater => .less
  | .lessEqual => .greaterEqual
  | .greaterEqual => .lessEqual

@[simp] theorem Relation.isOrder_mirror (c : Relation) : c.mirror.isOrder = c.isOrder := by
  cases c <;> rfl

theorem Value.relate_mirror (c : Relation) (x y : Value) : y.relate c.mirror x = x.relate c y := by
  have horder := order?_swap x y
  cases c with
  | equal => exact same_comm y x
  | notEqual => exact congrArg (!·) (same_comm y x)
  | _ =>
    simp only [relate, Relation.mirror, horder]
    cases order? y x with
    | none => rfl
    | some o => cases o <;> rfl

/-! ## Meetings -/

theorem ValueType.coarse?_orNull (t : ValueType) : t.orNull.coarse? = t.coarse? := by
  unfold orNull
  split <;> rfl

theorem ValueType.coarse?_orNullIf (b : Bool) (t : ValueType) : (t.orNullIf b).coarse? = t.coarse? := by
  unfold orNullIf
  split
  · exact coarse?_orNull t
  · rfl

structure Typed.SameTest (t u : Typed) : Prop where
  type : t.type = u.type
  value : ∀ r, t.node.valueOn r = u.node.valueOn r

namespace Lowering

variable {s : Scope} {a b : Typed} {location location' : Location}

structure Meeting.Mirror (p q : Meeting) : Prop where
  left : p.left = q.right
  right : p.right = q.left
  ordered : p.type.isOrdered = q.type.isOrdered

theorem isOrdered_of_coarse {t u : ValueType} (h : t.coarse? = u.coarse?) : t.isOrdered = u.isOrdered := by
  unfold ValueType.isOrdered
  rw [h]

/-- Of two steps it does not matter which comes first as long as either failure counts as the other. -/
theorem parallel_bind_comm {ε α β γ δ : Type} {R : γ → δ → Prop} {x : Except ε α} {y : Except ε β}
    {f : α → β → Except ε γ} {g : β → α → Except ε δ} (h : ∀ a b, Parallel R (f a b) (g b a)) :
    Parallel R (do let a ← x; let b ← y; f a b) (do let b ← y; let a ← x; g b a) := by
  cases x with
  | error d =>
    cases y with
    | error e => exact .error d e
    | ok b => exact .error d d
  | ok a =>
    cases y with
    | error e => exact .error e e
    | ok b => exact h a b

theorem isOneSort_comm (t u : ValueType) : isOneSort t u = isOneSort u t := by
  cases t <;> cases u <;> simp [isOneSort, eq_comm]

theorem coarse?_of_isOneSort {t u : ValueType} (h : isOneSort t u) : t.coarse? = u.coarse? := by
  unfold isOneSort at h
  split at h
  · rfl
  · simpa using h

theorem unify_mirror (symbol symbol' : String) :
    Parallel Meeting.Mirror (unify symbol a b location) (unify symbol' b a location') := by
  by_cases ha : a.type.underlying = .null
  · rw [unify_null_left ha, unify_null_right ha]
    exact .ok ⟨rfl, rfl, rfl⟩
  by_cases hb : b.type.underlying = .null
  · rw [unify_null_right hb, unify_null_left hb]
    exact .ok ⟨rfl, rfl, rfl⟩
  by_cases hnone : a.type.kind? = none ∨ b.type.kind? = none
  · rw [unify_others ha hb hnone, unify_others hb ha hnone.symm, isOneSort_comm b.type.underlying]
    by_cases hsort : isOneSort a.type.underlying b.type.underlying = true
    · simp only [hsort, ↓reduceIte]
      refine .ok ⟨rfl, rfl, isOrdered_of_coarse ?_⟩
      rw [ValueType.coarse?_orNullIf, ValueType.coarse?_orNullIf]
      exact coarse?_of_isOneSort hsort
    · simp only [hsort]
      exact .error _ _
  · obtain ⟨j, k, hj, hk⟩ := exists_kind?_of_not_none hnone
    rw [unify_numbers hj hk, unify_numbers hk hj, NumericKind.widen_comm k j]
    refine parallel_bind_comm fun n q => .ok ⟨rfl, rfl, isOrdered_of_coarse ?_⟩
    rw [ValueType.coarse?_orNullIf, ValueType.coarse?_orNullIf]

theorem relation_mirror (c : Relation) :
    Parallel Typed.SameTest (relation c a b location) (relation c.mirror b a location') := by
  unfold relation
  refine (unify_mirror c.symbol c.mirror.symbol).bind fun p q hpq => ?_
  rw [c.isOrder_mirror, hpq.ordered]
  by_cases horder : (c.isOrder && !q.type.isOrdered) = true
  · simp only [horder, ↓reduceIte]
    exact .error _ _
  · simp only [horder]
    refine .ok ⟨rfl, fun r => ?_⟩
    show (Node.relate c p.left p.right).valueOn r = (Node.relate c.mirror q.left q.right).valueOn r
    rw [Node.valueOn_relate, Node.valueOn_relate, hpq.left, hpq.right, Value.relate_mirror]

theorem compileTree_sameTest {e e' : Expr} (h : Parallel Typed.SameTest (lower s e) (lower s e'))
    (source source' : String) :
    Parallel (fun p q : Predicate => ∀ r, p.holds r = q.holds r) (s.compileTree e source)
      (s.compileTree e' source') := by
  unfold Scope.compileTree
  generalize lower s e = x at h ⊢
  generalize lower s e' = y at h ⊢
  cases h with
  | error d e => exact .error _ _
  | @ok t u h =>
    dsimp only
    rw [h.type]
    split
    · refine .ok fun r => ?_
      have hr : (t.node.eval r).value = (u.node.eval r).value := h.value r
      unfold Predicate.holds Predicate.run
      by_cases hid : r.model.id = s.model.id
      · simp only [hid, ↓reduceIte]
        exact congrArg Value.isTrue hr
      · simp only [hid]
        rfl
    · exact .error _ _

end Lowering

open Lowering

/-- **Operands in the other order.** A comparison is accepted just where the one read from the other side is, and the
two predicates hold of the same records. -/
theorem Scope.compileTree_mirror (s : Scope) (c : Relation) (a b : Expr) (l l' : Location) (source source' : String) :
    ((∃ p, s.compileTree (.binary (.relation c) a b l) source = .ok p) ↔
      ∃ q, s.compileTree (.binary (.relation c.mirror) b a l') source' = .ok q) ∧
    ∀ p q, s.compileTree (.binary (.relation c) a b l) source = .ok p →
      s.compileTree (.binary (.relation c.mirror) b a l') source' = .ok q → ∀ r : Record, p.holds r = q.holds r := by
  have hlower : Parallel Typed.SameTest (lower s (.binary (.relation c) a b l))
      (lower s (.binary (.relation c.mirror) b a l')) := by
    rw [lower, lower]
    exact parallel_bind_comm fun u v => relation_mirror c
  have hparallel := compileTree_sameTest hlower source source'
  exact ⟨hparallel.exists_ok_iff, fun p q hp hq => hparallel.rel hp hq⟩

/-- A numeral becomes a decimal on either side of one. -/
theorem Scope.compileTree_mirror_decimal :
    let m : Model := ⟨0, "Item", [⟨"Price", .nullable (.number .decimal), none⟩]⟩
    let s : Scope := ⟨m, .empty, .sensitive⟩
    let price : Expr := .field ["Price"] ⟨1, 1⟩
    let one : Expr := .literal (.number 1 "1") ⟨1, 9⟩
    let r : Record := ⟨m, [.decimal ⟨false, 5, 1, by decide, by decide⟩]⟩
    ∃ p q, s.compileTree (.binary (.relation .less) price one ⟨1, 7⟩) "Price < 1" = .ok p ∧
      s.compileTree (.binary (.relation .greater) one price ⟨1, 3⟩) "1 > Price" = .ok q ∧
      p.holds r = true ∧ p.holds r = q.holds r := by
  intro m s price one r
  have hp : ∃ p, s.compileTree (.binary (.relation .less) price one ⟨1, 7⟩) "Price < 1" = .ok p := ⟨_, rfl⟩
  obtain ⟨hiff, hholds⟩ := Scope.compileTree_mirror s .less price one ⟨1, 7⟩ ⟨1, 3⟩ "Price < 1" "1 > Price"
  obtain ⟨q, hq⟩ := hiff.mp hp
  obtain ⟨p, hp⟩ := hp
  refine ⟨p, q, hp, hq, ?_, hholds p q hp hq r⟩
  cases hp
  rfl

end RecordLogic
