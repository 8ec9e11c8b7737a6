import RecordLogic.Engine.Cache
import RecordLogic.Proofs.ParserExact

/-!
# Runs of a cache

A cache is filled, thinned and emptied in any order. Whatever the run, an entry is what its key compiles to, so that
asking a cache is compiling; and it stays the one entry of its key until it is dropped.
-/

namespace RecordLogic

namespace Cache

inductive Use where
  | get (m : Model) (source : String) (mode : Text.Case)
  | evict (m : Model) (source : String)
  | clear

def Use.Within (Has : Model → Prop) : Use → Prop
  | .get m _ _ | .evict m _ => Has m
  | .clear => True

def Use.Drops (id : Nat) (source : String) : Use → Prop
  | .get .. => False
  | .evict m text => m.id = id ∧ text = source
  | .clear => True

def use (g : Registry) (c : Cache) : Use → Cache
  | .get m source mode => (c.get ⟨m, g, mode⟩ source).2
  | .evict m source => (c.evict m source).2
  | .clear => c.clear

def after (g : Registry) (uses : List Use) : Cache := uses.foldl (use g) empty

def keyOf (s : Scope) (source : String) : CacheKey := ⟨s.model.id, source, s.mode⟩

section
variable {c : Cache} {s : Scope} {source : String} {key : CacheKey} {e : CacheEntry}

/-! ## One use -/

theorem get_cases (c : Cache) (s : Scope) (source : String) :
    (∃ e, c.find? (keyOf s source) = some e ∧ c.get s source = (.ok e, { c with hits := c.hits + 1 })) ∨
    (∃ f, c.find? (keyOf s source) = none ∧ s.compile source = .error f ∧
      c.get s source = (.error f, { c with misses := c.misses + 1 })) ∨
    ∃ p, c.find? (keyOf s source) = none ∧ s.compile source = .ok p ∧
      c.get s source = (.ok ⟨keyOf s source, c.compilations, p⟩,
        ⟨c.entries ++ [⟨keyOf s source, c.compilations, p⟩], c.hits, c.misses + 1, c.compilations + 1⟩) := by
  unfold get keyOf
  cases hfind : c.find? ⟨s.model.id, source, s.mode⟩ with
  | some e => exact .inl ⟨e, rfl, by simp [hfind]⟩
  | none =>
    cases hcompile : s.compile source with
    | error f => exact .inr (.inl ⟨f, rfl, rfl, by simp [hfind]⟩)
    | ok p => exact .inr (.inr ⟨p, rfl, rfl, by simp [hfind]⟩)

theorem find?_mem (h : c.find? key = some e) : e ∈ c.entries ∧ e.key = key := by
  unfold find? at h
  have hkey := List.find?_some h
  exact ⟨List.mem_of_find?_eq_some h, by simpa using hkey⟩

theorem find?_after_get (h : (c.get s source).1 = .ok e) : (c.get s source).2.find? (keyOf s source) = some e := by
  rcases get_cases c s source with ⟨f, hf, hget⟩ | ⟨f, -, -, hget⟩ | ⟨p, hnone, -, hget⟩
  · rw [hget] at h ⊢
    cases h
    exact hf
  · rw [hget] at h
    cases h
  · rw [hget] at h ⊢
    cases h
    unfold find? at hnone ⊢
    simp [List.find?_append, hnone]

theorem get_of_find? (h : c.find? (keyOf s source) = some e) : (c.get s source).1 = .ok e := by
  rcases get_cases c s source with ⟨f, hf, hget⟩ | ⟨f, hnone, -, -⟩ | ⟨p, hnone, -, -⟩
  · rw [h] at hf
    cases hf
    rw [hget]
  · rw [h] at hnone
    cases hnone
  · rw [h] at hnone
    cases hnone

theorem find?_get_of_some (h : c.find? key = some e) : (c.get s source).2.find? key = some e := by
  rcases get_cases c s source with ⟨f, -, hget⟩ | ⟨f, -, -, hget⟩ | ⟨p, -, -, hget⟩ <;> rw [hget]
  · exact h
  · exact h
  · unfold find? at h ⊢
    simp [List.find?_append, h]

theorem find?_evict {m : Model} (h : ¬ (key.model = m.id ∧ key.source = source)) :
    (c.evict m source).2.find? key = c.find? key := by
  unfold evict find?
  rw [List.find?_filter]
  congr 1
  funext f
  by_cases hkey : f.key = key
  · have hnot := not_and_or.mp h
    simpa [isOf, hkey] using hnot
  · simp [hkey]

theorem get_error_entries {f : Error} (h : (c.get s source).1 = .error f) :
    (c.get s source).2.entries = c.entries := by
  rcases get_cases c s source with ⟨_, -, hget⟩ | ⟨_, -, -, hget⟩ | ⟨_, -, -, hget⟩
  · rw [hget] at h
    cases h
  · rw [hget]
  · rw [hget] at h
    cases h

end

/-! ## Entries are what their keys compile to -/

section
variable {g : Registry} {Has : Model → Prop} {c : Cache}

def Compiled (g : Registry) (Has : Model → Prop) (c : Cache) : Prop :=
  ∀ e ∈ c.entries, ∃ m, Has m ∧ e.key.model = m.id ∧
    Scope.compile ⟨m, g, e.key.mode⟩ e.key.source = .ok e.predicate

theorem compiled_use {u : Use} (hc : c.Compiled g Has) (hu : u.Within Has) : (c.use g u).Compiled g Has := by
  intro e he
  cases u with
  | get m source mode =>
    rcases get_cases c ⟨m, g, mode⟩ source with ⟨_, -, hget⟩ | ⟨_, -, -, hget⟩ | ⟨p, -, hp, hget⟩
    · rw [use, hget] at he
      exact hc e he
    · rw [use, hget] at he
      exact hc e he
    · rw [use, hget] at he
      rcases List.mem_append.mp he with he | he
      · exact hc e he
      · obtain rfl := List.mem_singleton.mp he
        exact ⟨m, hu, rfl, hp⟩
  | evict m source => exact hc e (List.mem_of_mem_filter he)
  | clear => cases he

theorem compiled_foldl {uses : List Use} (hc : c.Compiled g Has) (hu : ∀ u ∈ uses, u.Within Has) :
    (uses.foldl (use g) c).Compiled g Has := by
  induction uses generalizing c with
  | nil => exact hc
  | cons u uses ih =>
    have hstep := compiled_use hc (hu u (.head _))
    exact ih hstep fun v hv => hu v (.tail _ hv)

theorem compiled_after {uses : List Use} (hu : ∀ u ∈ uses, u.Within Has) : (after g uses).Compiled g Has := by
  refine compiled_foldl ?_ hu
  intro e he
  cases he

theorem get_eq_compile {m : Model} (hd : ∀ m n, Has m → Has n → m.id = n.id → m = n) (hc : c.Compiled g Has)
    (hm : Has m) (source : String) (mode : Text.Case) :
    (c.get ⟨m, g, mode⟩ source).1.map CacheEntry.predicate = Scope.compile ⟨m, g, mode⟩ source := by
  rcases get_cases c ⟨m, g, mode⟩ source with ⟨e, hfind, hget⟩ | ⟨f, -, hf, hget⟩ | ⟨p, -, hp, hget⟩
  · obtain ⟨hmem, hkey⟩ := find?_mem hfind
    -- The entry was compiled for a model with this identity, which is this model.
    obtain ⟨n, hn, hid, hcompile⟩ := hc e hmem
    rw [hkey] at hid hcompile
    obtain rfl := hd m n hm hn hid
    rw [hget]
    exact hcompile.symm
  · rw [hget, hf]
    rfl
  · rw [hget, hp]
    rfl

end

/-! ## One entry until it is dropped -/

section
variable {g : Registry} {c : Cache} {key : CacheKey} {e : CacheEntry}

theorem find?_use_of_some {u : Use} (h : c.find? key = some e) (hu : ¬ u.Drops key.model key.source) :
    (c.use g u).find? key = some e := by
  cases u with
  | get m source mode => exact find?_get_of_some h
  | evict m source =>
    have hnot : ¬ (key.model = m.id ∧ key.source = source) := fun hk => hu ⟨hk.1.symm, hk.2.symm⟩
    exact (find?_evict hnot).trans h
  | clear => exact absurd trivial hu

theorem find?_foldl_of_some {uses : List Use} (h : c.find? key = some e)
    (hu : ∀ u ∈ uses, ¬ u.Drops key.model key.source) : (uses.foldl (use g) c).find? key = some e := by
  induction uses generalizing c with
  | nil => exact h
  | cons u uses ih =>
    have hstep := find?_use_of_some (g := g) h (hu u (.head _))
    exact ih hstep fun v hv => hu v (.tail _ hv)

def Numbered (c : Cache) : Prop := ∀ e ∈ c.entries, e.serial < c.compilations

theorem numbered_use {u : Use} (hc : c.Numbered) : (c.use g u).Numbered := by
  intro e he
  cases u with
  | get m source mode =>
    rcases get_cases c ⟨m, g, mode⟩ source with ⟨_, -, hget⟩ | ⟨_, -, -, hget⟩ | ⟨p, -, -, hget⟩
    · rw [use, hget] at he ⊢
      exact hc e he
    · rw [use, hget] at he ⊢
      exact hc e he
    · rw [use, hget] at he ⊢
      rcases List.mem_append.mp he with he | he
      · exact Nat.lt_succ_of_lt (hc e he)
      · obtain rfl := List.mem_singleton.mp he
        exact Nat.lt_succ_self _
  | evict m source => exact hc e (List.mem_of_mem_filter he)
  | clear => cases he

theorem numbered_foldl {uses : List Use} (hc : c.Numbered) : (uses.foldl (use g) c).Numbered := by
  induction uses generalizing c with
  | nil => exact hc
  | cons u uses ih => exact ih (numbered_use hc)

theorem numbered_after (uses : List Use) : (after g uses).Numbered := numbered_foldl (fun _ he => nomatch he)

/-- Whatever is kept under the key was compiled after the first `n` compilations. -/
def Renewed (n : Nat) (key : CacheKey) (c : Cache) : Prop :=
  n ≤ c.compilations ∧ ∀ e ∈ c.entries, e.key = key → n ≤ e.serial

theorem renewed_use {n : Nat} {u : Use} (hc : c.Renewed n key) : (c.use g u).Renewed n key := by
  obtain ⟨hn, hentries⟩ := hc
  cases u with
  | get m source mode =>
    rcases get_cases c ⟨m, g, mode⟩ source with ⟨_, -, hget⟩ | ⟨_, -, -, hget⟩ | ⟨p, -, -, hget⟩
    · rw [use, hget]
      exact ⟨hn, hentries⟩
    · rw [use, hget]
      exact ⟨hn, hentries⟩
    · rw [use, hget]
      refine ⟨Nat.le_succ_of_le hn, fun e he hkey => ?_⟩
      rcases List.mem_append.mp he with he | he
      · exact hentries e he hkey
      · obtain rfl := List.mem_singleton.mp he
        exact hn
  | evict m source => exact ⟨hn, fun e he => hentries e (List.mem_of_mem_filter he)⟩
  | clear => exact ⟨hn, fun e he => nomatch he⟩

theorem renewed_foldl {n : Nat} {uses : List Use} (hc : c.Renewed n key) :
    (uses.foldl (use g) c).Renewed n key := by
  induction uses generalizing c with
  | nil => exact hc
  | cons u uses ih => exact ih (renewed_use hc)

theorem renewed_of_drops {u : Use} (hu : u.Drops key.model key.source) :
    (c.use g u).Renewed c.compilations key := by
  cases u with
  | get m source mode => cases hu
  | evict m source =>
    refine ⟨Nat.le_refl _, fun e he hkey => ?_⟩
    obtain ⟨-, hkeep⟩ := List.mem_filter.mp he
    obtain ⟨hid, htext⟩ := hu
    simp [isOf, hkey, hid, htext] at hkeep
  | clear => exact ⟨Nat.le_refl _, fun e he => nomatch he⟩

theorem compilations_le_use {u : Use} : c.compilations ≤ (c.use g u).compilations := by
  cases u with
  | get m source mode =>
    unfold use
    rcases get_cases c ⟨m, g, mode⟩ source with ⟨_, -, hget⟩ | ⟨_, -, -, hget⟩ | ⟨p, -, -, hget⟩ <;> simp [hget]
  | evict m source => exact Nat.le_refl _
  | clear => exact Nat.le_refl _

theorem compilations_le_foldl (uses : List Use) : c.compilations ≤ (uses.foldl (use g) c).compilations := by
  induction uses generalizing c with
  | nil => exact Nat.le_refl _
  | cons u uses ih => exact Nat.le_trans compilations_le_use ih

theorem Renewed.le_serial {n : Nat} {s : Scope} {source : String} (hc : c.Renewed n (keyOf s source))
    (h : (c.get s source).1 = .ok e) : n ≤ e.serial := by
  rcases get_cases c s source with ⟨f, hfind, hget⟩ | ⟨_, -, -, hget⟩ | ⟨p, -, -, hget⟩ <;> rw [hget] at h <;> cases h
  · obtain ⟨hmem, hkey⟩ := find?_mem hfind
    exact hc.2 e hmem hkey
  · exact hc.1

theorem get_again {uses : List Use} {s t : Scope} {source : String} {d : CacheEntry}
    (hkey : keyOf t source = keyOf s source) (hd : (c.get s source).1 = .ok d)
    (hu : ∀ u ∈ uses, ¬ u.Drops s.model.id source)
    (he : ((uses.foldl (use g) (c.get s source).2).get t source).1 = .ok e) : e = d := by
  have hkeep := find?_foldl_of_some (g := g) (find?_after_get hd) hu
  rw [← hkey] at hkeep
  rw [get_of_find? hkeep] at he
  cases he
  rfl

theorem get_anew {uses : List Use} {s t : Scope} {source : String} {d : CacheEntry}
    (hkey : keyOf t source = keyOf s source) (hc : c.Numbered) (hd : (c.get s source).1 = .ok d)
    (hu : ∃ u ∈ uses, u.Drops s.model.id source)
    (he : ((uses.foldl (use g) (c.get s source).2).get t source).1 = .ok e) : d.serial < e.serial := by
  obtain ⟨u, hmem, hdrop⟩ := hu
  obtain ⟨as, bs, rfl⟩ := List.append_of_mem hmem
  -- The serial of `d` is below the number of compilations at the drop, and nothing under the key is below it after.
  rw [List.foldl_append, List.foldl_cons] at he
  have hnumbered : (c.get s source).2.Numbered := numbered_use (g := s.registry) (u := .get s.model source s.mode) hc
  have hserial : d.serial < (c.get s source).2.compilations := hnumbered d (find?_mem (find?_after_get hd)).1
  have hmono := compilations_le_foldl (g := g) (c := (c.get s source).2) as
  have hrenewed : Renewed _ (keyOf s source) (use g (as.foldl (use g) (c.get s source).2) u) := renewed_of_drops hdrop
  rw [← hkey] at hrenewed
  exact Nat.lt_of_lt_of_le hserial (Nat.le_trans hmono ((renewed_foldl hrenewed).le_serial he))

end

/-- **Transparency.** After any run a cache answers as compiling would. Two successful calls for one key give the
same entry unless the model's text or everything is dropped between them, and give different ones then. What is
dropped for one model and text, and what fails to compile, leaves the entries of all other keys. -/
theorem transparent {Has : Model → Prop} (hd : ∀ m n, Has m → Has n → m.id = n.id → m = n) (g : Registry) :
    (∀ uses m source mode, (∀ u ∈ uses, u.Within Has) → Has m →
      ((after g uses).get ⟨m, g, mode⟩ source).1.map CacheEntry.predicate = Scope.compile ⟨m, g, mode⟩ source) ∧
    (∀ before between m n source mode d e, n.id = m.id →
      ((after g before).get ⟨m, g, mode⟩ source).1 = .ok d →
      ((after g (before ++ .get m source mode :: between)).get ⟨n, g, mode⟩ source).1 = .ok e →
      ((∀ u ∈ between, ¬ u.Drops m.id source) → e = d) ∧
        ((∃ u ∈ between, u.Drops m.id source) → e.serial ≠ d.serial)) ∧
    (∀ c m source key, ¬ (key.model = m.id ∧ key.source = source) →
      (evict c m source).2.find? key = c.find? key) ∧
    ∀ c s source f, (get c s source).1 = .error f → (get c s source).2.entries = c.entries := by
  refine ⟨fun uses m source mode hu hm => ?_, fun before between m n source mode d e hid h h' => ?_, ?_, ?_⟩
  · exact get_eq_compile hd (compiled_after hu) hm source mode
  · have hkey : keyOf ⟨n, g, mode⟩ source = keyOf ⟨m, g, mode⟩ source := by
      unfold keyOf
      rw [hid]
    unfold after at h'
    rw [List.foldl_append, List.foldl_cons] at h'
    refine ⟨fun hu => get_again hkey h hu h', fun hu => ?_⟩
    exact Nat.ne_of_gt (get_anew hkey (numbered_after before) h hu h')
  · exact fun c m source key hkey => find?_evict hkey
  · exact fun c s source f hf => get_error_entries hf

/-- A run in which another text is dropped between two calls for `Ok`. -/
theorem transparent_ok :
    let m : Model := ⟨0, "Person", [⟨"Ok", .bool, none⟩]⟩
    let s : Scope := ⟨m, .empty, .sensitive⟩
    let uses : List Use := [.get m "Ok" .sensitive, .evict m "No"]
    ∃ p, s.compile "Ok" = .ok p ∧ ((after .empty uses).get s "Ok").1.map CacheEntry.predicate = .ok p ∧
      ∀ d e, (empty.get s "Ok").1 = .ok d → ((after .empty uses).get s "Ok").1 = .ok e → e = d := by
  intro m s uses
  have htokens : tokenize "Ok" = .ok [⟨.name, none, "Ok", ⟨1, 1⟩⟩, ⟨.stop, none, "", ⟨1, 3⟩⟩] := rfl
  have hparse := parse_name htokens rfl rfl
  have hp : s.compile "Ok" = .ok ⟨"Ok", m, .field "Ok" [.field 0]⟩ := by
    unfold Scope.compile
    rw [hparse]
    rfl
  have hdistinct : ∀ k n : Model, k = m → n = m → k.id = n.id → k = n := fun _ _ hk hn _ => hk.trans hn.symm
  obtain ⟨hcompile, hshare, -⟩ := @transparent (· = m) hdistinct .empty
  refine ⟨_, hp, (hcompile uses m "Ok" .sensitive ?_ rfl).trans hp, fun d e hd he => ?_⟩
  · simp [uses, Use.Within]
  · refine (hshare [] [.evict m "No"] m m "Ok" .sensitive d e rfl hd he).1 ?_
    simp [Use.Drops]

end Cache

end RecordLogic
