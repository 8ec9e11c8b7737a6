import Mathlib.Data.List.Induction
import Mathlib.Data.List.Nodup
import RecordLogic.Library.Standard
import RecordLogic.Proofs.LetterCase
import RecordLogic.Proofs.Registration

/-!
# No two functions clash

A function has a key, its name in small letters and its parameters, and clashes with those of the same key. Adding
asks for a new key, and a set that replaces all others is added to nothing one by one, so all keys of a registry are
different whatever was asked of it. A call without null arguments has a key as well, and finds that function or none.
-/

namespace RecordLogic

/-! ## Keys -/

namespace Signature

variable {s t : Signature}

def key (s : Signature) : List Char × List CoarseType := (s.name.toList.map Char.toLower, s.params)

theorem clashes_iff : s.clashes t ↔ s.key = t.key := by
  simp [clashes, Text.sameLetters, key]

theorem accepts_some {args : List CoarseType} : s.accepts (args.map some) ↔ s.params = args := by
  unfold accepts
  generalize s.params = params
  induction params generalizing args with
  | nil => cases args <;> simp
  | cons p params ih =>
    cases args with
    | nil => simp
    | cons a args =>
      have hlist := @ih args
      by_cases h : p = a
      · simpa [h] using hlist
      · have hne : (a == p) = false := beq_eq_false_iff_ne.mpr (Ne.symm h)
        simp [h, hne]

end Signature

def Apart (signatures : List Signature) : Prop := signatures.Pairwise fun s t => ¬ s.clashes t

theorem apart_iff_nodup {signatures : List Signature} : Apart signatures ↔ (signatures.map Signature.key).Nodup := by
  unfold Apart List.Nodup
  rw [List.pairwise_map]
  simp only [Signature.clashes_iff, ne_eq]

theorem apart_concat {signatures : List Signature} {s : Signature} :
    Apart (signatures ++ [s]) ↔ Apart signatures ∧ ∀ d ∈ signatures, ¬ d.clashes s := by
  simp [Apart, List.pairwise_append]

/-- A list of functions has none that clash, or a first that clashes with one before it. -/
theorem apart_or_clash (signatures : List Signature) : Apart signatures ∨
    ∃ before s after, signatures = before ++ s :: after ∧ Apart before ∧ ∃ d ∈ before, d.clashes s := by
  induction signatures using List.reverseRecOn with
  | nil => exact .inl .nil
  | append_singleton signatures s ih =>
    obtain h | ⟨before, t, after, rfl, hbefore, hclash⟩ := ih
    · by_cases hs : ∃ d ∈ signatures, d.clashes s
      · exact .inr ⟨signatures, s, [], rfl, h, hs⟩
      · refine .inl (apart_concat.mpr ⟨h, fun d hd hclash => hs ⟨d, hd, hclash⟩⟩)
    · exact .inr ⟨before, t, after ++ [s], by simp, hbefore, hclash⟩

theorem not_apart_of_clash {before after : List Signature} {s : Signature} (h : ∃ d ∈ before, d.clashes s) :
    ¬ Apart (before ++ s :: after) := by
  obtain ⟨d, hd, hclash⟩ := h
  intro hapart
  exact (List.pairwise_append.mp hapart).2.2 d hd s (.head _) hclash

/-! ## Changes -/

namespace Registry

variable {g g' : Registry} {s : Signature} {signatures : List Signature}

/-- Functions are pushed one by one as long as none clashes with one before it. -/
theorem pushAll_of_apart (h : Apart (g.signatures ++ signatures)) :
    g.pushAll signatures = (⟨g.signatures ++ signatures⟩, none) := by
  induction signatures generalizing g with
  | nil => simp [pushAll]
  | cons s signatures ih =>
    rw [← List.singleton_append, ← List.append_assoc] at h ⊢
    have hfirst := apart_concat.mp (h.sublist (List.sublist_append_left _ _))
    rw [List.singleton_append, pushAll, push_of_apart hfirst.2]
    exact ih h

theorem pushAll_of_clash {before : List Signature} (after : List Signature) (h : Apart (g.signatures ++ before))
    (hclash : ∃ d ∈ g.signatures ++ before, d.clashes s) :
    (g.pushAll (before ++ s :: after)).2 = some (.duplicateSignature s.name s.params) := by
  induction before generalizing g with
  | nil =>
    rw [List.append_nil] at hclash
    rw [List.nil_append, pushAll, push_of_clash hclash]
  | cons t before ih =>
    rw [← List.singleton_append, ← List.append_assoc] at h hclash
    have hfirst := apart_concat.mp (h.sublist (List.sublist_append_left _ _))
    rw [List.cons_append, pushAll, push_of_apart hfirst.2]
    exact ih h hclash

theorem replace_of_apart (h : Apart signatures) : g.replace signatures = (⟨signatures⟩, none) := by
  unfold replace
  rw [pushAll_of_apart (g := empty) h]
  rfl

theorem replace_of_clash {before after : List Signature} (h : Apart before) (hclash : ∃ d ∈ before, d.clashes s) :
    g.replace (before ++ s :: after) = (g, some (.duplicateSignature s.name s.params)) := by
  have hrefused := pushAll_of_clash after (show Apart (empty.signatures ++ before) from h) hclash
  unfold replace
  generalize empty.pushAll (before ++ s :: after) = left at hrefused ⊢
  obtain ⟨_, refused⟩ := left
  obtain rfl := hrefused
  rfl

theorem change_add (g : Registry) (s : Signature) :
    ((∀ d ∈ g.signatures, ¬ d.clashes s) ∧ g.change (.add s) = (⟨g.signatures ++ [s]⟩, none)) ∨
    (∃ d ∈ g.signatures, d.clashes s) ∧ g.change (.add s) = (g, some (.duplicateSignature s.name s.params)) := by
  by_cases h : ∃ d ∈ g.signatures, d.clashes s
  · exact .inr ⟨h, push_of_clash h⟩
  · have hfree : ∀ d ∈ g.signatures, ¬ d.clashes s := fun d hd hclash => h ⟨d, hd, hclash⟩
    exact .inl ⟨hfree, push_of_apart hfree⟩

theorem change_replace (g : Registry) (signatures : List Signature) :
    (Apart signatures ∧ g.change (.replace signatures) = (⟨signatures⟩, none)) ∨
    ∃ before s after, signatures = before ++ s :: after ∧ Apart before ∧ (∃ d ∈ before, d.clashes s) ∧
      g.change (.replace signatures) = (g, some (.duplicateSignature s.name s.params)) := by
  obtain h | ⟨before, s, after, rfl, hbefore, hclash⟩ := apart_or_clash signatures
  · exact .inl ⟨h, replace_of_apart h⟩
  · exact .inr ⟨before, s, after, rfl, hbefore, hclash, replace_of_clash hbefore hclash⟩

/-- The registry after changes one after another, failed ones among them. -/
def after (g : Registry) (changes : List Change) : Registry := changes.foldl (fun g c => (g.change c).1) g

theorem change_apart (h : Apart g.signatures) (c : Change) : Apart (g.change c).1.signatures := by
  cases c with
  | add s =>
    obtain ⟨hfree, hchange⟩ | ⟨-, hchange⟩ := change_add g s
    · rw [hchange]
      exact apart_concat.mpr ⟨h, hfree⟩
    · rw [hchange]
      exact h
  | replace signatures =>
    obtain ⟨happart, hchange⟩ | ⟨_, _, _, -, -, -, hchange⟩ := change_replace g signatures
    · rw [hchange]
      exact happart
    · rw [hchange]
      exact h

theorem after_apart (h : Apart g.signatures) (changes : List Change) : Apart (g.after changes).signatures := by
  induction changes generalizing g with
  | nil => exact h
  | cons c changes ih => exact ih (change_apart h c)

theorem apart_standard (now : DateTime) : Apart (standard now).signatures := by
  -- The clock is in the results only.
  have hkeys : (standard now).signatures.map Signature.key = (standard ⟨1, 0, 0⟩).signatures.map Signature.key := rfl
  rw [apart_iff_nodup, hkeys]
  decide +kernel

/-! ## Calls -/

variable {name : String} {args : List CoarseType}

def accepting (g : Registry) (name : String) (args : List CoarseType) : List Signature :=
  (g.overloads .ignored name).filter (·.accepts (args.map some))

theorem mem_accepting : s ∈ g.accepting name args ↔
    s ∈ g.signatures ∧ s.key = (name.toList.map Char.toLower, args) := by
  simp [accepting, overloads, Text.Case.agree, Text.sameLetters, Signature.accepts_some, Signature.key, and_comm,
    and_left_comm]

theorem accepting_length_le_one (h : Apart g.signatures) : (g.accepting name args).length ≤ 1 := by
  have hsub : (g.accepting name args).Sublist g.signatures := List.filter_sublist.trans List.filter_sublist
  have hnodup := (apart_iff_nodup.mp h).sublist (hsub.map Signature.key)
  have hall : ∀ k ∈ (g.accepting name args).map Signature.key, k = (name.toList.map Char.toLower, args) := by
    intro k hk
    obtain ⟨s, hs, rfl⟩ := List.mem_map.mp hk
    exact (mem_accepting.mp hs).2
  rw [List.eq_replicate_of_mem hall, List.nodup_replicate, List.length_map] at hnodup
  exact hnodup

theorem resolve?_eq_head? (g : Registry) (name : String) (args : List CoarseType) :
    g.resolve? .ignored name (args.map some) = (g.accepting name args).head? := List.head?_filter.symm

theorem resolve?_ignored_of_apart (h : Apart g.signatures) (hs : g.resolve? .sensitive name (args.map some) = some s) :
    g.resolve? .ignored name (args.map some) = some s := by
  have hmem : s ∈ g.accepting name args := by
    have haccepts := List.find?_some hs
    obtain ⟨hsignatures, hname⟩ := List.mem_filter.mp (List.mem_of_find?_eq_some hs)
    exact List.mem_filter.mpr ⟨List.mem_filter.mpr ⟨hsignatures, Text.agree_ignored hname⟩, haccepts⟩
  obtain ⟨t, ht⟩ := List.length_eq_one_iff.mp
    (Nat.le_antisymm (accepting_length_le_one h) (List.length_pos_of_mem hmem))
  rw [ht, List.mem_singleton] at hmem
  rw [resolve?_eq_head?, ht, hmem]
  rfl

theorem resolve?_of_mem (h : Apart g.signatures) (hs : s ∈ g.signatures) :
    g.resolve? .sensitive s.name (s.params.map some) = some s := by
  have hname : s ∈ g.overloads .sensitive s.name := List.mem_filter.mpr ⟨hs, by simp [Text.Case.agree]⟩
  have hself : s.accepts (s.params.map some) := Signature.accepts_some.mpr rfl
  obtain ⟨t, ht⟩ : ∃ t, g.resolve? .sensitive s.name (s.params.map some) = some t :=
    Option.isSome_iff_exists.mp (List.find?_isSome.mpr ⟨s, hname, hself⟩)
  have hresolve : g.resolve? .ignored s.name (s.params.map some) = some t := resolve?_ignored_of_apart h ht
  have haccepting : t ∈ g.accepting s.name s.params := by
    rw [resolve?_eq_head?] at hresolve
    exact List.mem_of_head? hresolve
  obtain ⟨u, hu⟩ := List.length_eq_one_iff.mp
    (Nat.le_antisymm (accepting_length_le_one h) (List.length_pos_of_mem haccepting))
  have hmem : s ∈ g.accepting s.name s.params := mem_accepting.mpr ⟨hs, rfl⟩
  rw [hu, List.mem_singleton] at haccepting hmem
  rw [ht, haccepting, hmem]

def call? (g : Registry) (name : String) (args : List Value) : Option Value :=
  (g.resolve? .sensitive name (args.map Value.coarse?)).map fun s => s.invoke args

theorem call?_of_mem (h : Apart g.signatures) (hs : s ∈ g.signatures) {args : List Value}
    (hargs : args.map Value.coarse? = s.params.map some) : g.call? s.name args = some (s.invoke args) := by
  unfold call?
  rw [hargs, resolve?_of_mem h hs]
  rfl

end Registry

/-- **No two functions clash.** Whatever changes are asked for, and whether or not they fail, no two functions have the
same name up to case and the same parameters. So at most one accepts a call without null arguments, whatever the case
of its name, and a call that is resolved by its exact name is resolved to the same function when case is ignored. -/
theorem Registry.after_unambiguous {g : Registry} (hg : g = .empty ∨ ∃ now, g = .standard now) (changes : List Change) :
    ((g.after changes).signatures.Pairwise fun s t => ¬ (Text.sameLetters s.name t.name ∧ s.params = t.params)) ∧
    ∀ (name : String) (args : List CoarseType), ((g.after changes).accepting name args).length ≤ 1 ∧
      ∀ s, (g.after changes).resolve? .sensitive name (args.map some) = some s →
        (g.after changes).resolve? .ignored name (args.map some) = some s := by
  have hstart : Apart g.signatures := by
    obtain rfl | ⟨now, rfl⟩ := hg
    · exact .nil
    · exact apart_standard now
  have hafter := after_apart hstart changes
  refine ⟨?_, fun name args => ⟨accepting_length_le_one hafter, fun s hs => resolve?_ignored_of_apart hafter hs⟩⟩
  apply hafter.imp
  intro s t h
  simpa [Signature.clashes] using h

/-- A function that clashes with another up to case does not come in, whether it is added or among those that replace
all others. -/
theorem Registry.after_unambiguous_pick :
    let onTexts : Signature := ⟨"Pick", [.string], .bool, fun _ => .bool true⟩
    let again : Signature := ⟨"PICK", [.string], .bool, fun _ => .bool false⟩
    let onNumbers : Signature := ⟨"pick", [.number], .bool, fun _ => .bool false⟩
    let changes : List Change := [.add onTexts, .add again, .replace [onNumbers, onTexts, again], .add onNumbers]
    (Registry.empty = .empty ∨ ∃ now, Registry.empty = .standard now) ∧
      Registry.empty.after changes = ⟨[onTexts, onNumbers]⟩ ∧
      ((Registry.empty.after changes).accepting "pick" [.string]).length ≤ 1 ∧
      (Registry.empty.after changes).resolve? .sensitive "Pick" [some .string] = some onTexts ∧
      (Registry.empty.after changes).resolve? .ignored "Pick" [some .string] = some onTexts := by
  intro onTexts again onNumbers changes
  have hstart : Registry.empty = .empty ∨ ∃ now, Registry.empty = .standard now := .inl rfl
  have hclash : onTexts.clashes again := by decide +kernel
  have hfree : ¬ onTexts.clashes onNumbers ∧ ¬ onNumbers.clashes onTexts := by decide +kernel
  have hadd : Registry.empty.push onTexts = (⟨[onTexts]⟩, none) := Registry.push_of_apart nofun
  have hagain : Registry.push ⟨[onTexts]⟩ again = (⟨[onTexts]⟩, some (.duplicateSignature "PICK" [.string])) :=
    Registry.push_of_clash ⟨onTexts, .head _, hclash⟩
  have hreplace : Registry.replace ⟨[onTexts]⟩ [onNumbers, onTexts, again] =
      (⟨[onTexts]⟩, some (.duplicateSignature "PICK" [.string])) :=
    Registry.replace_of_clash (.cons (by simpa using hfree.2) (List.pairwise_singleton _ _)) ⟨onTexts, by simp, hclash⟩
  have hnumbers : Registry.push ⟨[onTexts]⟩ onNumbers = (⟨[onTexts, onNumbers]⟩, none) :=
    Registry.push_of_apart (by simpa using hfree.1)
  have hafter : Registry.empty.after changes = ⟨[onTexts, onNumbers]⟩ := by
    simp only [Registry.after, changes, List.foldl, Registry.change, hadd, hagain, hreplace, hnumbers]
  have hresolve : (Registry.empty.after changes).resolve? .sensitive "Pick" [some .string] = some onTexts := by
    rw [hafter]
    rfl
  obtain ⟨-, hcalls⟩ := Registry.after_unambiguous hstart changes
  exact ⟨hstart, hafter, (hcalls "pick" [.string]).1, hresolve, (hcalls "Pick" [.string]).2 onTexts hresolve⟩

/-- **Changes are made as a whole or not at all.** Functions replace all others just when no two of them clash, and the
registry has them in their order then. Otherwise it is as it was, and the error names the first that clashes with one
before it. One function is added behind all others, or nothing changes and the error names it. -/
theorem Registry.change_atomic (g : Registry) :
    (∀ signatures, ((g.change (.replace signatures)).2 = none ↔ Apart signatures) ∧
      (g.change (.replace signatures) = (⟨signatures⟩, none) ∨
        ∃ before s after, signatures = before ++ s :: after ∧ Apart before ∧ (∃ d ∈ before, d.clashes s) ∧
          g.change (.replace signatures) = (g, some (.duplicateSignature s.name s.params)))) ∧
    ∀ s, ((g.change (.add s)).2 = none ↔ ∀ d ∈ g.signatures, ¬ d.clashes s) ∧
      (g.change (.add s) = (⟨g.signatures ++ [s]⟩, none) ∨
        g.change (.add s) = (g, some (.duplicateSignature s.name s.params))) := by
  refine ⟨fun signatures => ?_, fun s => ?_⟩
  · obtain ⟨happart, hchange⟩ | ⟨before, s, after, rfl, hbefore, hclash, hchange⟩ := change_replace g signatures
    · rw [hchange]
      exact ⟨⟨fun _ => happart, fun _ => rfl⟩, .inl rfl⟩
    · have hnot : ¬ Apart (before ++ s :: after) := not_apart_of_clash hclash
      rw [hchange]
      exact ⟨⟨nofun, fun h => absurd h hnot⟩, .inr ⟨before, s, after, rfl, hbefore, hclash, rfl⟩⟩
  · obtain ⟨hfree, hchange⟩ | ⟨⟨d, hd, hclash⟩, hchange⟩ := change_add g s
    · rw [hchange]
      exact ⟨⟨fun _ => hfree, fun _ => rfl⟩, .inl rfl⟩
    · rw [hchange]
      exact ⟨⟨nofun, fun h => absurd hclash (h d hd)⟩, .inr rfl⟩

end RecordLogic
