import Mathlib.Data.List.Basic
import RecordLogic.Pattern.Basic

/-!
# What patterns take

A pattern takes a part of a text between what stands before it and what stands behind it. Following all places at once
leads to just the places behind what can be taken from one of them, so a search finds something wherever there is
something to take.
-/

namespace RecordLogic

abbrev Taking := List Char → List Char → List Char → Prop

namespace Taking

def nothing : Taking := fun _ cs _ => cs = []

def followedBy (R S : Taking) : Taking := fun before cs after =>
  ∃ x y, cs = x ++ y ∧ R before x (y ++ after) ∧ S (before ++ x) y after

def times (R : Taking) : Nat → Taking
  | 0 => nothing
  | n + 1 => R.followedBy (R.times n)

def between (R : Taking) (least : Nat) (most : Option Nat) : Taking := fun before cs after =>
  ∃ n, least ≤ n ∧ (∀ m ∈ most, n ≤ max least m) ∧ R.times n before cs after

def Reaches (R : Taking) (text : List Char) (places : List Nat) (place : Nat) : Prop :=
  ∃ before cs after, text = before ++ cs ++ after ∧ before.length ∈ places ∧ (before ++ cs).length = place ∧
    R before cs after

variable {R S : Taking} {before cs after text : List Char} {places : List Nat} {place m n : Nat}

theorem Reaches.le_length (h : R.Reaches text places place) : place ≤ text.length := by
  obtain ⟨before, cs, after, rfl, -, rfl, -⟩ := h
  simp

theorem Reaches.imp (h : ∀ before cs after, text = before ++ cs ++ after → R before cs after → S before cs after)
    (hR : R.Reaches text places place) : S.Reaches text places place := by
  obtain ⟨before, cs, after, htext, hbefore, hplace, hcs⟩ := hR
  exact ⟨before, cs, after, htext, hbefore, hplace, h before cs after htext hcs⟩

/-! ## Parts repeated -/

theorem followedBy_nothing : R.followedBy nothing before cs after ↔ R before cs after := by
  constructor
  · rintro ⟨x, y, rfl, hx, rfl⟩
    simpa using hx
  · intro h
    exact ⟨cs, [], by simp, by simpa using h, rfl⟩

theorem times_one : R.times 1 before cs after ↔ R before cs after := followedBy_nothing

theorem times_add : R.times (m + n) before cs after ↔ ((R.times m).followedBy (R.times n)) before cs after := by
  induction m generalizing before cs with
  | zero =>
    rw [Nat.zero_add]
    constructor
    · intro h
      exact ⟨[], cs, rfl, rfl, by simpa using h⟩
    · rintro ⟨x, y, rfl, rfl, hy⟩
      simpa using hy
  | succ m ih =>
    rw [Nat.succ_add]
    constructor
    · rintro ⟨x, y, rfl, hx, hy⟩
      obtain ⟨y, z, rfl, hy, hz⟩ := ih.mp hy
      exact ⟨x ++ y, z, by simp, ⟨x, y, rfl, by simpa using hx, hy⟩, by simpa using hz⟩
    · rintro ⟨_, z, rfl, ⟨x, y, rfl, hx, hy⟩, hz⟩
      exact ⟨x, y ++ z, by simp, by simpa using hx, ih.mpr ⟨y, z, rfl, hy, by simpa using hz⟩⟩

/-- Parts that take nothing can be left out, so no more parts are needed than there are characters. -/
theorem times_le_length (h : R.times n before cs after) : ∃ k ≤ n, k ≤ cs.length ∧ R.times k before cs after := by
  induction n generalizing before cs with
  | zero => exact ⟨0, Nat.le_refl 0, Nat.zero_le _, h⟩
  | succ n ih =>
    obtain ⟨x, y, rfl, hx, hy⟩ := h
    obtain ⟨k, hkn, hky, hk⟩ := ih hy
    cases x with
    | nil => exact ⟨k, by omega, hky, by simpa using hk⟩
    | cons c x =>
      refine ⟨k + 1, by omega, ?_, ⟨c :: x, y, rfl, hx, hk⟩⟩
      simp only [List.length_append, List.length_cons]
      omega

/-- The repetitions behind the least ones are as many as the most allows, or as there are characters. -/
theorem between_iff {least bound : Nat} {most : Option Nat} (hbound : cs.length ≤ bound) :
    R.between least most before cs after ↔ ((R.times least).followedBy fun before cs after =>
      ∃ k ≤ min ((most.map (· - least)).getD bound) bound, R.times k before cs after) before cs after := by
  constructor
  · rintro ⟨n, hleast, hmost, hn⟩
    obtain ⟨k, rfl⟩ := Nat.exists_eq_add_of_le hleast
    obtain ⟨x, y, rfl, hx, hy⟩ := times_add.mp hn
    obtain ⟨i, hik, hiy, hi⟩ := times_le_length hy
    refine ⟨x, y, rfl, hx, i, ?_, hi⟩
    rw [List.length_append] at hbound
    cases most with
    | none => exact Nat.le_min.mpr ⟨by simp; omega, by omega⟩
    | some m =>
      have hm := hmost m rfl
      exact Nat.le_min.mpr ⟨by simp; omega, by omega⟩
  · rintro ⟨x, y, rfl, hx, k, hk, hy⟩
    refine ⟨least + k, Nat.le_add_right _ _, ?_, times_add.mpr ⟨x, y, rfl, hx, hy⟩⟩
    rintro m rfl
    have hkm : k ≤ m - least := (Nat.le_min.mp hk).1
    omega

/-! ## Steps from places to places -/

/-- A step leads from places of the text to just the places behind what can be taken there. -/
def Followed (R : Taking) (text : List Char) (step : List Nat → List Nat) : Prop :=
  ∀ places, (∀ i ∈ places, i ≤ text.length) → ∀ place, place ∈ step places ↔ R.Reaches text places place

variable {step next : List Nat → List Nat}

theorem Followed.le_length (h : R.Followed text step) (hplaces : ∀ i ∈ places, i ≤ text.length) :
    ∀ i ∈ step places, i ≤ text.length := fun i hi => ((h places hplaces i).mp hi).le_length

theorem Followed.congr (h : R.Followed text step)
    (hiff : ∀ before cs after, text = before ++ cs ++ after → (R before cs after ↔ S before cs after)) :
    S.Followed text step := by
  intro places hplaces place
  rw [h places hplaces place]
  exact ⟨Reaches.imp fun b cs a ht => (hiff b cs a ht).mp, Reaches.imp fun b cs a ht => (hiff b cs a ht).mpr⟩

theorem reaches_nothing (hplaces : ∀ i ∈ places, i ≤ text.length) :
    nothing.Reaches text places place ↔ place ∈ places := by
  constructor
  · rintro ⟨before, cs, after, -, hbefore, rfl, rfl⟩
    simpa using hbefore
  · intro h
    have hlength : (text.take place).length = place := List.length_take_of_le (hplaces place h)
    exact ⟨text.take place, [], text.drop place, by simp, by rwa [hlength], by simpa using hlength, rfl⟩

theorem followed_nothing : nothing.Followed text id := fun _ hplaces _ => (reaches_nothing hplaces).symm

theorem Followed.followedBy (hR : R.Followed text step) (hS : S.Followed text next) :
    (R.followedBy S).Followed text fun places => next (step places) := by
  intro places hplaces place
  rw [hS _ (hR.le_length hplaces)]
  constructor
  · rintro ⟨before, y, after, htext, hbefore, hplace, hy⟩
    obtain ⟨before', x, after', htext', hbefore', hlength, hx⟩ := (hR _ hplaces _).mp hbefore
    -- Both describe one place of the text, so they agree before it and behind it.
    rw [htext, List.append_assoc] at htext'
    obtain ⟨rfl, rfl⟩ := List.append_inj htext' hlength.symm
    exact ⟨before', x ++ y, after, by simp [htext], hbefore', by simpa using hplace, x, y, rfl, hx, hy⟩
  · rintro ⟨before, _, after, rfl, hbefore, rfl, x, y, rfl, hx, hy⟩
    refine ⟨before ++ x, y, after, by simp, (hR _ hplaces _).mpr ?_, by simp, hy⟩
    exact ⟨before, x, y ++ after, by simp, hbefore, rfl, hx⟩

/-- Places that a step does not change are not changed by any number of steps. -/
theorem repeatStep_succ (step : List Nat → List Nat) (n : Nat) (places : List Nat) :
    Pattern.repeatStep step (n + 1) places = Pattern.repeatStep step n (step places) := by
  rw [Pattern.repeatStep]
  split
  · rename_i hsame
    rw [hsame]
    cases n with
    | zero => rfl
    | succ n => exact (if_pos hsame).symm
  · rfl

theorem Followed.repeatStep (h : R.Followed text step) (n : Nat) :
    (R.times n).Followed text (Pattern.repeatStep step n) := by
  induction n with
  | zero => exact followed_nothing
  | succ n ih =>
    intro places hplaces place
    rw [repeatStep_succ]
    exact h.followedBy ih places hplaces place

theorem mem_merge (as bs : List Nat) : place ∈ Pattern.merge as bs ↔ place ∈ as ∨ place ∈ bs := by
  fun_induction Pattern.merge as bs with
  | case1 bs => simp
  | case2 as => simp
  | case3 a as b bs h ih => simp [ih, or_assoc]
  | case4 a as b bs h h' ih =>
    simp only [List.mem_cons, ih]
    tauto
  | case5 a as b bs h h' ih =>
    obtain rfl : a = b := by omega
    simp only [List.mem_cons, ih]
    tauto

theorem Followed.merge (hR : R.Followed text step) (hS : S.Followed text next) :
    Followed (fun before cs after => R before cs after ∨ S before cs after) text
      fun places => Pattern.merge (step places) (next places) := by
  intro places hplaces place
  rw [mem_merge, hR places hplaces, hS places hplaces]
  constructor
  · rintro (h | h)
    · exact h.imp fun _ _ _ _ => .inl
    · exact h.imp fun _ _ _ _ => .inr
  · rintro ⟨before, cs, after, htext, hbefore, hplace, h | h⟩
    · exact .inl ⟨before, cs, after, htext, hbefore, hplace, h⟩
    · exact .inr ⟨before, cs, after, htext, hbefore, hplace, h⟩

theorem closure_eq (step : List Nat → List Nat) (n : Nat) (places : List Nat) : Pattern.closure step n places =
    Pattern.repeatStep (fun places => Pattern.merge places (step places)) n places := by
  induction n generalizing places with
  | zero => rfl
  | succ n ih => rw [Pattern.closure, Pattern.repeatStep, ih]

theorem times_optional : times (fun before cs after => nothing before cs after ∨ R before cs after) n before cs after ↔
    ∃ k ≤ n, R.times k before cs after := by
  induction n generalizing before cs with
  | zero => simp [times]
  | succ n ih =>
    constructor
    · rintro ⟨x, y, rfl, rfl | hx, hy⟩
      · obtain ⟨k, hk, hy⟩ := ih.mp hy
        exact ⟨k, by omega, by simpa using hy⟩
      · obtain ⟨k, hk, hy⟩ := ih.mp hy
        exact ⟨k + 1, by omega, x, y, rfl, hx, hy⟩
    · rintro ⟨_ | k, hk, h⟩
      · obtain rfl : cs = [] := h
        exact ⟨[], [], rfl, .inl rfl, ih.mpr ⟨0, Nat.zero_le n, rfl⟩⟩
      · obtain ⟨x, y, rfl, hx, hy⟩ := h
        exact ⟨x, y, rfl, .inr hx, ih.mpr ⟨k, by omega, hy⟩⟩

theorem Followed.closure (h : R.Followed text step) (n : Nat) :
    Followed (fun before cs after => ∃ k ≤ n, R.times k before cs after) text (Pattern.closure step n) := by
  have hrepeat := (followed_nothing.merge h).repeatStep n
  intro places hplaces place
  rw [closure_eq]
  exact hrepeat.congr (fun _ _ _ _ => times_optional) places hplaces place

end Taking

/-! ## Anchors -/

namespace Anchor

def beginsWord (cs : List Char) : Bool := cs.head?.any fun c => CharSet.word.mem c.toNat

def endsWord (cs : List Char) : Bool := cs.getLast?.any fun c => CharSet.word.mem c.toNat

def Between : Anchor → List Char → List Char → Prop
  | .start, before, _ => before = []
  | .stop, _, after => after = []
  | .lineStart, before, _ => before = [] ∨ before.getLast? = some '\n'
  | .lineStop, _, after => after = [] ∨ after.head? = some '\n'
  | .wordBorder, before, after => endsWord before ≠ beginsWord after
  | .noWordBorder, before, after => endsWord before = beginsWord after
  | .wordStart, before, after => ¬ endsWord before ∧ beginsWord after
  | .wordStop, before, after => endsWord before ∧ ¬ beginsWord after

variable (before after : List Char)

theorem getElem?_behind : (before ++ after).toArray[before.length]? = after.head? := by
  simp [List.getElem?_append_right, List.head?_eq_getElem?]

theorem getElem?_before (h : before ≠ []) :
    (before ++ after).toArray[before.length - 1]? = before.getLast? := by
  have hpos := List.length_pos_iff.mpr h
  rw [List.getElem?_toArray, List.getElem?_append_left (by omega), List.getLast?_eq_getElem?]

theorem isWordAt_eq : isWordAt (before ++ after).toArray before.length = beginsWord after := by
  rw [isWordAt, getElem?_behind]
  rfl

theorem isWordBefore_eq : isWordBefore (before ++ after).toArray before.length = endsWord before := by
  by_cases h : before = []
  · subst h
    rfl
  · have hlength : (before.length != 0) = true := by simpa using h
    rw [isWordBefore, hlength, Bool.true_and, isWordAt, getElem?_before before after h]
    rfl

theorem holds_iff (a : Anchor) : a.holds (before ++ after).toArray before.length ↔ a.Between before after := by
  cases a with
  | start => simp [holds, Between]
  | stop => simp [holds, Between]
  | lineStart =>
    by_cases h : before = []
    · simp [holds, Between, h]
    · simp [holds, Between, h, -List.getElem?_toArray, getElem?_before before after h]
  | lineStop => simp [holds, Between, -List.getElem?_toArray, getElem?_behind]
  | wordBorder => simp [holds, Between, isWordAt_eq, isWordBefore_eq]
  | noWordBorder => simp [holds, Between, isWordAt_eq, isWordBefore_eq]
  | wordStart => simp [holds, Between, isWordAt_eq, isWordBefore_eq]
  | wordStop => simp [holds, Between, isWordAt_eq, isWordBefore_eq]

end Anchor

/-! ## Patterns -/

namespace Pattern

open Taking

def Takes : Pattern → Taking
  | .empty => nothing
  | .set s => fun _ cs _ => ∃ c, cs = [c] ∧ s.mem c.toNat
  | .anchor a => fun before cs after => cs = [] ∧ a.Between before after
  | .seq p q => p.Takes.followedBy q.Takes
  | .alt p q => fun before cs after => p.Takes before cs after ∨ q.Takes before cs after
  | .times p least most => p.Takes.between least most

variable {text : List Char}

theorem followed_set (s : CharSet) (text : List Char) : (Pattern.set s).Takes.Followed text
    ((Pattern.set s).advance text.toArray) := by
  intro places hplaces place
  simp only [advance, List.mem_filterMap]
  constructor
  · rintro ⟨i, hi, h⟩
    have hlength : (text.take i).length = i := List.length_take_of_le (hplaces i hi)
    split at h
    · rename_i c hc
      split at h
      · rename_i hmem
        cases h
        obtain ⟨hlt, rfl⟩ := List.getElem?_eq_some_iff.mp (List.getElem?_toArray ▸ hc)
        refine ⟨text.take i, [text[i]], text.drop (i + 1), by simp, by rwa [hlength], by simp; omega, _, rfl, hmem⟩
      · cases h
    · cases h
  · rintro ⟨before, _, after, rfl, hbefore, rfl, c, rfl, hmem⟩
    refine ⟨before.length, hbefore, ?_⟩
    rw [List.append_assoc, Anchor.getElem?_behind]
    simp [hmem]

theorem followed_anchor (a : Anchor) (text : List Char) : (Pattern.anchor a).Takes.Followed text
    ((Pattern.anchor a).advance text.toArray) := by
  intro places hplaces place
  rw [advance, List.mem_filter]
  constructor
  · rintro ⟨hplace, h⟩
    obtain ⟨before, _, after, htext, hbefore, rfl, rfl⟩ := (reaches_nothing hplaces).mpr hplace
    rw [List.append_nil] at htext h
    rw [htext, Anchor.holds_iff] at h
    exact ⟨before, [], after, by simpa using htext, hbefore, rfl, rfl, h⟩
  · rintro ⟨before, _, after, rfl, hbefore, rfl, rfl, h⟩
    rw [List.append_nil]
    exact ⟨hbefore, (a.holds_iff before after).mpr h⟩

/-- All places at once are led to the places behind what the pattern takes. -/
theorem followed_advance (p : Pattern) (text : List Char) : p.Takes.Followed text (p.advance text.toArray) := by
  induction p with
  | empty => exact followed_nothing
  | set s => exact followed_set s text
  | anchor a => exact followed_anchor a text
  | seq p q hp hq => exact hp.followedBy hq
  | alt p q hp hq => exact hp.merge hq
  | times p least most ih =>
    have hstep := (ih.repeatStep least).followedBy
      (ih.closure (min ((most.map (· - least)).getD (text.length + 1)) (text.length + 1)))
    refine hstep.congr fun before cs after htext => (between_iff ?_).symm
    rw [htext]
    simp only [List.length_append]
    omega

/-- **What a search finds.** A pattern is met just where it takes some part of the text, among what stands before and
behind that part. -/
theorem isMatch_iff (p : Pattern) (s : String) :
    p.isMatch s ↔ ∃ before cs after, s.toList = before ++ cs ++ after ∧ p.Takes before cs after := by
  have hplaces : ∀ i ∈ List.range (s.toList.length + 1), i ≤ s.toList.length := by
    intro i hi
    have hlt := List.mem_range.mp hi
    omega
  have hsome : p.isMatch s ↔ ∃ place, place ∈ p.advance s.toList.toArray (List.range (s.toList.length + 1)) := by
    simp [isMatch, List.eq_nil_iff_forall_not_mem]
  rw [hsome]
  constructor
  · rintro ⟨place, h⟩
    obtain ⟨before, cs, after, htext, -, -, hcs⟩ := (p.followed_advance s.toList _ hplaces place).mp h
    exact ⟨before, cs, after, htext, hcs⟩
  · rintro ⟨before, cs, after, htext, hcs⟩
    refine ⟨(before ++ cs).length, (p.followed_advance s.toList _ hplaces _).mpr ?_⟩
    refine ⟨before, cs, after, htext, List.mem_range.mpr ?_, rfl, hcs⟩
    rw [htext]
    simp only [List.length_append]
    omega

end Pattern

end RecordLogic
