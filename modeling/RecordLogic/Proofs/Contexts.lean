import Mathlib.Data.List.Induction
import RecordLogic.Proofs.Outcome
import RecordLogic.Proofs.Evaluation

/-!
# Contexts

An expression with a hole where a part may stand, as the list of what is around the hole from the inside to the
outside. The parts of an expression are what fills its contexts.
-/

namespace RecordLogic.Expr

inductive Frame where
  | call (name : String) (before after : List Expr) (location : Location)
  | unary (op : UnaryOp) (location : Location)
  | left (op : BinaryOp) (right : Expr) (location : Location)
  | right (op : BinaryOp) (left : Expr) (location : Location)
  | condition (yes no : Expr) (location : Location)
  | yes (condition no : Expr) (location : Location)
  | no (condition yes : Expr) (location : Location)

namespace Frame

def fill (e : Expr) : Frame → Expr
  | .call name before after l => .call name (before ++ e :: after) l
  | .unary op l => .unary op e l
  | .left op b l => .binary op e b l
  | .right op a l => .binary op a e l
  | .condition y n l => .conditional e y n l
  | .yes c n l => .conditional c e n l
  | .no c y l => .conditional c y e l

def beside? : Frame → Option Expr
  | .left _ e _ | .right _ e _ | .yes _ e _ | .no _ e _ => some e
  | .call .. | .unary .. | .condition .. => none

def isMinus : Frame → Bool
  | .unary .negate _ => true
  | _ => false

end Frame

abbrev Context := List Frame

def Context.fill (C : Context) (e : Expr) : Expr := C.foldl (fun e f => f.fill e) e

namespace Context

theorem fill_append (C D : Context) (e : Expr) : fill (C ++ D) e = fill D (fill C e) := by
  unfold fill
  rw [List.foldl_append]

end Context

/-! ## Parts and contexts -/

theorem mem_partsOfAll {d : Expr} {es : List Expr} : d ∈ partsOfAll es ↔ ∃ e ∈ es, d ∈ e.parts := by
  induction es with
  | nil => simp [partsOfAll]
  | cons e es ih => simp [partsOfAll, ih]

theorem mem_parts_self (e : Expr) : e ∈ e.parts := by
  cases e <;> simp [parts]

theorem Frame.mem_parts_fill {d e : Expr} (h : d ∈ e.parts) (f : Frame) : d ∈ (f.fill e).parts := by
  cases f with
  | call name before after l =>
    have hargs : d ∈ partsOfAll (before ++ e :: after) := mem_partsOfAll.mpr ⟨e, by simp, h⟩
    simp [fill, parts, hargs]
  | _ => simp [fill, parts, h]

theorem Context.mem_parts_fill (C : Context) (e : Expr) : e ∈ (fill C e).parts := by
  induction C using List.reverseRecOn with
  | nil => exact mem_parts_self e
  | append_singleton C f ih =>
    rw [fill_append]
    exact f.mem_parts_fill ih

theorem Context.exists_fill_frame {d e : Expr} (h : ∃ C : Context, C.fill d = e) (f : Frame) :
    ∃ C : Context, C.fill d = f.fill e := by
  obtain ⟨C, rfl⟩ := h
  exact ⟨C ++ [f], fill_append C [f] d⟩

mutual

theorem exists_fill_of_mem_parts : ∀ {e d : Expr}, d ∈ e.parts → ∃ C : Context, C.fill d = e
  | .literal v l, d, h => by
    rw [parts] at h
    exact ⟨[], List.mem_singleton.mp h⟩
  | .field path l, d, h => by
    rw [parts] at h
    exact ⟨[], List.mem_singleton.mp h⟩
  | .call name args l, d, h => by
    rw [parts] at h
    rcases List.mem_cons.mp h with rfl | h
    · exact ⟨[], rfl⟩
    obtain ⟨before, e, after, rfl, C, hC⟩ := exists_fill_of_mem_partsOfAll h
    exact Context.exists_fill_frame ⟨C, hC⟩ (.call name before after l)
  | .unary op e l, d, h => by
    rw [parts] at h
    rcases List.mem_cons.mp h with rfl | h
    · exact ⟨[], rfl⟩
    exact Context.exists_fill_frame (exists_fill_of_mem_parts h) (.unary op l)
  | .binary op a b l, d, h => by
    rw [parts] at h
    rcases List.mem_cons.mp h with rfl | h
    · exact ⟨[], rfl⟩
    rcases List.mem_append.mp h with h | h
    · exact Context.exists_fill_frame (exists_fill_of_mem_parts h) (.left op b l)
    · exact Context.exists_fill_frame (exists_fill_of_mem_parts h) (.right op a l)
  | .conditional c y n l, d, h => by
    rw [parts] at h
    rcases List.mem_cons.mp h with rfl | h
    · exact ⟨[], rfl⟩
    rcases List.mem_append.mp h with h | h
    · exact Context.exists_fill_frame (exists_fill_of_mem_parts h) (.condition y n l)
    rcases List.mem_append.mp h with h | h
    · exact Context.exists_fill_frame (exists_fill_of_mem_parts h) (.yes c n l)
    · exact Context.exists_fill_frame (exists_fill_of_mem_parts h) (.no c y l)

theorem exists_fill_of_mem_partsOfAll : ∀ {es : List Expr} {d : Expr}, d ∈ partsOfAll es →
    ∃ before e after, es = before ++ e :: after ∧ ∃ C : Context, C.fill d = e
  | [], d, h => by
    rw [partsOfAll] at h
    cases h
  | e :: es, d, h => by
    rw [partsOfAll] at h
    rcases List.mem_append.mp h with h | h
    · exact ⟨[], e, es, rfl, exists_fill_of_mem_parts h⟩
    · obtain ⟨before, a, after, rfl, hC⟩ := exists_fill_of_mem_partsOfAll h
      exact ⟨e :: before, a, after, rfl, hC⟩

end

/-- Every part of an expression has a context, and every context has its filling as a part. -/
theorem mem_parts_iff {d e : Expr} : d ∈ e.parts ↔ ∃ C : Context, C.fill d = e := by
  refine ⟨exists_fill_of_mem_parts, fun ⟨C, h⟩ => ?_⟩
  rw [← h]
  exact C.mem_parts_fill d

end RecordLogic.Expr
