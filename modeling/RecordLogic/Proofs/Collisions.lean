import RecordLogic.Proofs.Descriptors

/-!
# Paths that meet

Two dotted paths meet where one begins with all segments of the other. Of two lists of paths the first pair that meets
is found, the first list deciding before the second, with the last segment of the shorter path and its depth.
-/

namespace RecordLogic

open Text

def Meet (a b : String) : Prop := segments a <+: segments b ∨ segments b <+: segments a

/-- Where two paths that meet part or end: the last segment of the shorter one, which both have at that depth. -/
structure MeetAt (a b segment : String) (depth : Nat) : Prop where
  meet : Meet a b
  shorter : depth + 1 = min (segments a).length (segments b).length
  left : (segments a)[depth]? = some segment
  right : (segments b)[depth]? = some segment

/-- The first pair that meets: no path before `a` meets any path of the other list, and `a` none before `b`. -/
def FirstMeeting (as bs : List String) (a b : String) : Prop :=
  ∃ before after before' after', as = before ++ a :: after ∧ bs = before' ++ b :: after' ∧
    (∀ x ∈ before, ∀ y ∈ bs, ¬ Meet x y) ∧ (∀ y ∈ before', ¬ Meet a y) ∧ Meet a b

section
variable {as bs : List String} {a b segment : String} {depth : Nat}

theorem Meet.comm : Meet a b ↔ Meet b a := Or.comm

theorem take_min_eq_iff {x y : List String} :
    x.take (min x.length y.length) = y.take (min x.length y.length) ↔ x <+: y ∨ y <+: x := by
  rcases Nat.le_total x.length y.length with h | h
  · rw [Nat.min_eq_left h, List.take_length, ← List.prefix_iff_eq_take]
    exact ⟨.inl, fun hprefix => hprefix.elim id fun hyx => (hyx.eq_of_length_le h) ▸ List.prefix_rfl⟩
  · rw [Nat.min_eq_right h, List.take_length, eq_comm, ← List.prefix_iff_eq_take]
    exact ⟨.inr, fun hprefix => hprefix.elim (fun hxy => (hxy.eq_of_length_le h) ▸ List.prefix_rfl) id⟩

/-! ## One pair -/

def meeting? (a b : String) : Option (String × Nat) :=
  let x := segments a
  let y := segments b
  let shared := min x.length y.length
  if x.take shared = y.take shared then (x[shared - 1]?).map fun s => (s, shared - 1) else none

theorem segmentsCollide_eq (as bs : List String) :
    segmentsCollide as bs = as.findSome? fun a => bs.findSome? (meeting? a) := rfl

/-- Paths have a segment each, so there is one at the end of the shorter path. -/
theorem Meet.exists_meetAt (h : Meet a b) : ∃ segment depth, MeetAt a b segment depth := by
  have ha : 0 < (segments a).length := List.length_pos_iff.mpr (Model.segments_ne_nil a)
  have hb : 0 < (segments b).length := List.length_pos_iff.mpr (Model.segments_ne_nil b)
  let depth := min (segments a).length (segments b).length - 1
  have hleft : depth < (segments a).length := by omega
  have hright : depth < (segments b).length := by omega
  have hsame : (segments b)[depth] = (segments a)[depth] := by
    rcases h with h | h
    · exact (h.getElem hleft).symm
    · exact h.getElem hright
  exact ⟨(segments a)[depth], depth, h, by omega, List.getElem?_eq_getElem hleft,
    hsame ▸ List.getElem?_eq_getElem hright⟩

theorem meeting?_of_meetAt (h : MeetAt a b segment depth) : meeting? a b = some (segment, depth) := by
  have hdepth : min (segments a).length (segments b).length - 1 = depth := by
    have hshorter := h.shorter
    omega
  unfold meeting?
  dsimp only
  rw [if_pos (take_min_eq_iff.mpr h.meet), hdepth, h.left]
  rfl

theorem meeting?_eq_none : meeting? a b = none ↔ ¬ Meet a b := by
  constructor
  · intro hnone h
    obtain ⟨segment, depth, hat⟩ := h.exists_meetAt
    rw [meeting?_of_meetAt hat] at hnone
    cases hnone
  · intro h
    exact if_neg (mt take_min_eq_iff.mp h)

theorem meeting?_eq_some : meeting? a b = some (segment, depth) ↔ MeetAt a b segment depth := by
  refine ⟨fun hsome => ?_, meeting?_of_meetAt⟩
  have hmeet : Meet a b := by
    by_contra h
    rw [meeting?_eq_none.mpr h] at hsome
    cases hsome
  obtain ⟨segment', depth', hat⟩ := hmeet.exists_meetAt
  rw [meeting?_of_meetAt hat] at hsome
  cases hsome
  exact hat

/-! ## All pairs -/

theorem segmentsCollide_eq_none : segmentsCollide as bs = none ↔ ∀ a ∈ as, ∀ b ∈ bs, ¬ Meet a b := by
  simp only [segmentsCollide_eq, List.findSome?_eq_none_iff, meeting?_eq_none]

theorem segmentsCollide_eq_some : segmentsCollide as bs = some (segment, depth) ↔
    ∃ a b, FirstMeeting as bs a b ∧ MeetAt a b segment depth := by
  simp only [segmentsCollide_eq, List.findSome?_eq_some_iff, List.findSome?_eq_none_iff, meeting?_eq_none,
    meeting?_eq_some]
  constructor
  · rintro ⟨before, a, after, has, ⟨before', b, after', hbs, hat, hb⟩, ha⟩
    exact ⟨a, b, ⟨before, after, before', after', has, hbs, ha, hb, hat.meet⟩, hat⟩
  · rintro ⟨a, b, ⟨before, after, before', after', has, hbs, ha, hb, -⟩, hat⟩
    exact ⟨before, a, after, has, ⟨before', b, after', hbs, hat, hb⟩, ha⟩

end

/-- **Collisions of paths.** Nothing is found just where no path of the one list meets one of the other. What is found
is the last segment of the shorter path of the first pair that meets, with its depth. Which list comes first does not
decide whether anything is found. -/
theorem segmentsCollide_first_meeting (as bs : List String) :
    (segmentsCollide as bs = none ↔ ∀ a ∈ as, ∀ b ∈ bs, ¬ Meet a b) ∧
    (∀ segment depth, segmentsCollide as bs = some (segment, depth) ↔
      ∃ a b, FirstMeeting as bs a b ∧ MeetAt a b segment depth) ∧
    (segmentsCollide as bs).isSome = (segmentsCollide bs as).isSome := by
  refine ⟨segmentsCollide_eq_none, fun _ _ => segmentsCollide_eq_some, ?_⟩
  have hnone : segmentsCollide as bs = none ↔ segmentsCollide bs as = none := by
    rw [segmentsCollide_eq_none, segmentsCollide_eq_none]
    exact ⟨fun h b hb a ha hmeet => h a ha b hb (Meet.comm.mp hmeet),
      fun h a ha b hb hmeet => h b hb a ha (Meet.comm.mp hmeet)⟩
  rw [Bool.eq_iff_iff, Option.isSome_iff_ne_none, Option.isSome_iff_ne_none]
  exact not_congr hnone

example : segmentsCollide ["Name", "Address.Street"] ["Age", "Address.Street.Length"] = some ("Street", 1) := by
  decide +kernel

end RecordLogic
