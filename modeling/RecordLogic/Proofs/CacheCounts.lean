import Mathlib.Data.List.Induction
import RecordLogic.Proofs.CacheRun

/-!
# The counters of a cache

A run is written down call by call, each with its answer and the cache before and after it. Whatever the calls, the
counters at the end are what can be counted in these events, and the entries are what was compiled and not dropped.
-/

namespace RecordLogic.Cache

inductive Call where
  | get (s : Scope) (source : String)
  | evict (m : Model) (source : String)
  | clear

inductive Answer where
  | result (r : Except Error CacheEntry)
  | evicted (any : Bool)
  | cleared

def answer (c : Cache) : Call → Answer × Cache
  | .get s source => (.result (c.get s source).1, (c.get s source).2)
  | .evict m source => (.evicted (c.evict m source).1, (c.evict m source).2)
  | .clear => (.cleared, c.clear)

structure Event where
  before : Cache
  call : Call
  answer : Answer
  after : Cache

def event (c : Cache) (call : Call) : Event := ⟨c, call, (c.answer call).1, (c.answer call).2⟩

def events (c : Cache) : List Call → List Event
  | [] => []
  | call :: calls => c.event call :: (c.event call).after.events calls

def afterAll (c : Cache) (calls : List Call) : Cache := calls.foldl (fun c call => (c.event call).after) c

def keys (c : Cache) : List CacheKey := c.entries.map CacheEntry.key

def keyIsOf (m : Model) (source : String) (key : CacheKey) : Bool := key.model == m.id && key.source == source

namespace Event

def asks (d : Event) : Bool :=
  match d.call with
  | .get .. => true
  | _ => false

def fails (d : Event) : Bool :=
  match d.answer with
  | .result (.error _) => true
  | _ => false

def dropped (d : Event) : List CacheKey := d.before.keys.filter (· ∉ d.after.keys)

def Compiles (d : Event) (key : CacheKey) : Prop :=
  ∃ s source p, d.call = .get s source ∧ keyOf s source = key ∧ key ∉ d.before.keys ∧ s.compile source = .ok p

end Event

/-- Some event compiles what is under the key, and none after it drops that. -/
def Kept (key : CacheKey) (events : List Event) : Prop :=
  ∃ earlier d later, events = earlier ++ d :: later ∧ d.Compiles key ∧ ∀ x ∈ later, key ∉ x.dropped

def removals (events : List Event) : List CacheKey := (events.filter (!·.asks)).flatMap Event.dropped

structure Counts (c : Cache) (events : List Event) : Prop where
  asked : c.hits + c.misses = events.countP Event.asks
  failed : c.misses = c.compilations + events.countP Event.fails
  removed : c.size + (removals events).length = c.compilations

variable {c : Cache} {call : Call} {calls : List Call} {key : CacheKey} {d : Event} {s : Scope} {m : Model}
  {source : String}

theorem events_concat (c : Cache) (calls : List Call) (call : Call) :
    c.events (calls ++ [call]) = c.events calls ++ [(c.afterAll calls).event call] := by
  induction calls generalizing c with
  | nil => rfl
  | cons first calls ih => simp [events, ih, afterAll]

theorem afterAll_concat (c : Cache) (calls : List Call) (call : Call) :
    c.afterAll (calls ++ [call]) = ((c.afterAll calls).event call).after := by
  simp [afterAll]

/-! ## One call -/

theorem find?_eq_none : c.find? key = none ↔ key ∉ c.keys := by
  simp [find?, keys]

theorem event_get (c : Cache) (s : Scope) (source : String) :
    (∃ e, keyOf s source ∈ c.keys ∧
      c.event (.get s source) = ⟨c, .get s source, .result (.ok e), { c with hits := c.hits + 1 }⟩) ∨
    (∃ f, s.compile source = .error f ∧
      c.event (.get s source) = ⟨c, .get s source, .result (.error f), { c with misses := c.misses + 1 }⟩) ∨
    ∃ e, keyOf s source ∉ c.keys ∧ e.key = keyOf s source ∧ s.compile source = .ok e.predicate ∧
      c.event (.get s source) = ⟨c, .get s source, .result (.ok e),
        ⟨c.entries ++ [e], c.hits, c.misses + 1, c.compilations + 1⟩⟩ := by
  unfold event answer
  rcases get_cases c s source with ⟨e, hfind, hget⟩ | ⟨f, -, hf, hget⟩ | ⟨p, hfind, hp, hget⟩
  · left
    have hmem : keyOf s source ∈ c.keys := by
      by_contra hnot
      simp [find?_eq_none.mpr hnot] at hfind
    simp [hget, hmem]
  · right
    left
    simp [hget, hf]
  · right
    right
    refine ⟨⟨keyOf s source, c.compilations, p⟩, find?_eq_none.mp hfind, rfl, hp, ?_⟩
    simp [hget]

theorem keys_evict (c : Cache) (m : Model) (source : String) :
    (c.evict m source).2.keys = c.keys.filter (!keyIsOf m source ·) := by
  unfold keys evict
  rw [List.filter_map]
  rfl

theorem dropped_evict (c : Cache) (m : Model) (source : String) :
    (c.event (.evict m source)).dropped = c.keys.filter (keyIsOf m source) := by
  unfold Event.dropped event answer
  dsimp only
  rw [keys_evict]
  apply List.filter_congr
  intro key hkey
  simp [hkey]

theorem dropped_clear (c : Cache) : (c.event .clear).dropped = c.keys := by
  simp [Event.dropped, event, answer, clear, keys]

theorem dropped_get (c : Cache) (s : Scope) (source : String) : (c.event (.get s source)).dropped = [] := by
  unfold Event.dropped
  rw [List.filter_eq_nil_iff]
  intro key hkey
  rcases event_get c s source with ⟨e, -, h⟩ | ⟨f, -, h⟩ | ⟨e, -, -, -, h⟩
  · rw [h] at hkey ⊢
    simpa [keys] using hkey
  · rw [h] at hkey ⊢
    simpa [keys] using hkey
  · rw [h] at hkey ⊢
    simp only [keys, List.map_append, List.mem_append, decide_not] at hkey ⊢
    simp [hkey]

theorem compiles_get : (c.event (.get s source)).Compiles key ↔
    keyOf s source = key ∧ key ∉ c.keys ∧ ∃ p, s.compile source = .ok p := by
  refine ⟨fun ⟨_, _, p, hcall, hkey, hnot, hp⟩ => ?_, fun ⟨hkey, hnot, p, hp⟩ => ⟨s, source, p, rfl, hkey, hnot, hp⟩⟩
  cases hcall
  exact ⟨hkey, hnot, p, hp⟩

theorem keys_get (c : Cache) (s : Scope) (source : String) :
    ((∀ key, ¬ (c.event (.get s source)).Compiles key) ∧ (c.event (.get s source)).after.keys = c.keys) ∨
    keyOf s source ∉ c.keys ∧ (∀ key, (c.event (.get s source)).Compiles key ↔ key = keyOf s source) ∧
      (c.event (.get s source)).after.keys = c.keys ++ [keyOf s source] := by
  simp only [compiles_get]
  rcases event_get c s source with ⟨e, hmem, h⟩ | ⟨f, hf, h⟩ | ⟨e, hnot, hkey, hp, h⟩
  · left
    refine ⟨?_, by rw [h]; rfl⟩
    rintro key ⟨rfl, hnot, -⟩
    exact hnot hmem
  · left
    refine ⟨?_, by rw [h]; rfl⟩
    simp [hf]
  · right
    refine ⟨hnot, ?_, ?_⟩
    · intro key
      refine ⟨fun hk => hk.1.symm, ?_⟩
      rintro rfl
      exact ⟨rfl, hnot, e.predicate, hp⟩
    · rw [h, ← hkey]
      exact List.map_append

theorem mem_keys_event (c : Cache) (call : Call) (key : CacheKey) :
    key ∈ (c.event call).after.keys ↔ (c.event call).Compiles key ∨ key ∈ c.keys ∧ key ∉ (c.event call).dropped := by
  cases call with
  | get s source =>
    rcases keys_get c s source with ⟨hnone, hkeys⟩ | ⟨-, hcompiles, hkeys⟩
    · simp [hkeys, hnone, dropped_get]
    · simp [hkeys, hcompiles, dropped_get, or_comm]
  | evict m source =>
    have hnone : ¬ (c.event (.evict m source)).Compiles key := fun ⟨_, _, _, h, _⟩ => nomatch h
    change key ∈ (c.evict m source).2.keys ↔ _
    rw [keys_evict, dropped_evict]
    simp only [List.mem_filter, hnone, false_or]
    apply and_congr_right
    intro hkey
    simp [hkey]
  | clear =>
    have hnone : ¬ (c.event .clear).Compiles key := fun ⟨_, _, _, h, _⟩ => nomatch h
    change key ∈ c.clear.keys ↔ _
    simp [hnone, dropped_clear, clear, keys]

theorem keys_nodup_event (h : c.keys.Nodup) : (c.event call).after.keys.Nodup := by
  cases call with
  | get s source =>
    rcases keys_get c s source with ⟨-, hkeys⟩ | ⟨hnot, -, hkeys⟩
    · rwa [hkeys]
    · rw [hkeys]
      simpa [List.nodup_append, h] using fun key hkey => ne_of_mem_of_not_mem hkey hnot
  | evict m source =>
    change (c.evict m source).2.keys.Nodup
    rw [keys_evict]
    exact h.filter _
  | clear => exact List.nodup_nil

theorem evicted_iff (c : Cache) (m : Model) (source : String) :
    (c.evict m source).1 = true ↔ (c.event (.evict m source)).dropped ≠ [] := by
  rw [dropped_evict, ne_eq, List.filter_eq_nil_iff]
  simp [evict, isOf, keys, keyIsOf]

theorem kept_concat {events : List Event} :
    Kept key (events ++ [d]) ↔ d.Compiles key ∨ Kept key events ∧ key ∉ d.dropped := by
  refine ⟨fun ⟨earlier, x, later, hsplit, hx, hlater⟩ => ?_, ?_⟩
  · rcases List.eq_nil_or_concat later with rfl | ⟨later, y, rfl⟩
    · obtain ⟨-, hd⟩ := List.append_inj' hsplit rfl
      cases hd
      exact .inl hx
    · rw [List.concat_eq_append, ← List.cons_append, ← List.append_assoc] at hsplit
      obtain ⟨rfl, hd⟩ := List.append_inj' hsplit rfl
      cases hd
      simp only [List.concat_eq_append, List.mem_append, List.mem_singleton] at hlater
      exact .inr ⟨⟨earlier, x, later, rfl, hx, fun z hz => hlater z (.inl hz)⟩, hlater d (.inr rfl)⟩
  · rintro (hd | ⟨⟨earlier, x, later, rfl, hx, hlater⟩, hnot⟩)
    · exact ⟨events, d, [], rfl, hd, by simp⟩
    · refine ⟨earlier, x, later ++ [d], by simp, hx, ?_⟩
      intro y hy
      rcases List.mem_append.mp hy with hy | hy
      · exact hlater y hy
      · obtain rfl := List.mem_singleton.mp hy
        exact hnot

/-! ## Whole runs -/

theorem removals_concat (events : List Event) (d : Event) :
    removals (events ++ [d]) = removals events ++ if d.asks then [] else d.dropped := by
  unfold removals
  by_cases h : d.asks <;> simp [h]

theorem size_evict (c : Cache) (m : Model) (source : String) :
    (c.evict m source).2.size + (c.event (.evict m source)).dropped.length = c.size := by
  have hlength : ∀ c : Cache, c.size = c.keys.length := by simp [size, keys]
  rw [dropped_evict, hlength, hlength, keys_evict, Nat.add_comm]
  exact (List.length_eq_length_filter_add _).symm

theorem Counts.event {events : List Event} (h : c.Counts events) :
    (c.event call).after.Counts (events ++ [c.event call]) := by
  obtain ⟨hasked, hfailed, hremoved⟩ := h
  cases call with
  | get s source =>
    rcases event_get c s source with ⟨e, -, h⟩ | ⟨f, -, h⟩ | ⟨e, -, -, -, h⟩
    · rw [h]
      constructor <;> simp [removals_concat, Event.asks, Event.fails, size] at * <;> omega
    · rw [h]
      constructor <;> simp [removals_concat, Event.asks, Event.fails, size] at * <;> omega
    · rw [h]
      constructor <;> simp [removals_concat, Event.asks, Event.fails, size] at * <;> omega
  | evict m source =>
    have hsize := size_evict c m source
    constructor
    · simpa [Event.asks, Cache.event, answer, evict] using hasked
    · simpa [Event.fails, Cache.event, answer, evict] using hfailed
    · change (c.evict m source).2.size + _ = c.compilations
      have hasks : ¬ (c.event (.evict m source)).asks := nofun
      rw [removals_concat, if_neg hasks, List.length_append]
      omega
  | clear =>
    constructor
    · simpa [Event.asks, Cache.event, answer, clear] using hasked
    · simpa [Event.fails, Cache.event, answer, clear] using hfailed
    · change 0 + _ = c.compilations
      rw [removals_concat, dropped_clear, List.length_append, Nat.zero_add]
      simpa [keys, Event.asks, Cache.event, size, Nat.add_comm] using hremoved

theorem counts_afterAll (calls : List Call) : (empty.afterAll calls).Counts (empty.events calls) := by
  induction calls using List.reverseRecOn with
  | nil => exact ⟨rfl, rfl, rfl⟩
  | append_singleton calls call ih =>
    rw [events_concat, afterAll_concat]
    exact ih.event

theorem keys_afterAll (calls : List Call) : (empty.afterAll calls).keys.Nodup ∧
    ∀ key, key ∈ (empty.afterAll calls).keys ↔ Kept key (empty.events calls) := by
  induction calls using List.reverseRecOn with
  | nil =>
    refine ⟨List.nodup_nil, fun key => ⟨nofun, ?_⟩⟩
    rintro ⟨earlier, d, later, hsplit, -⟩
    simp [events] at hsplit
  | append_singleton calls call ih =>
    obtain ⟨hnodup, hmem⟩ := ih
    rw [events_concat, afterAll_concat]
    refine ⟨keys_nodup_event hnodup, fun key => ?_⟩
    rw [mem_keys_event, kept_concat, hmem]

theorem mem_events {d : Event} (h : d ∈ c.events calls) : ∃ b, d = Cache.event b d.call := by
  induction calls generalizing c with
  | nil => cases h
  | cons call calls ih =>
    rcases List.mem_cons.mp h with rfl | h
    · exact ⟨c, rfl⟩
    · exact ih h

/-- **The counters account for the run.** After any calls from an empty cache on, the hits and misses are as many as the
calls for predicates, and the misses as many as the compilations and the calls that failed. The entries there are and
the entries dropped are as many as the compilations. Dropping for a model and a text drops just what is kept for them,
and tells whether anything was dropped; clearing drops everything, and calls for predicates drop nothing. There is one
entry for each key that was compiled and not dropped since, and no other. -/
theorem counters_account (calls : List Call) :
    let c := empty.afterAll calls
    let events := empty.events calls
    c.hits + c.misses = events.countP Event.asks ∧
    c.misses = c.compilations + events.countP Event.fails ∧
    c.size + (removals events).length = c.compilations ∧
    (∀ d ∈ events, ∀ m source, d.call = .evict m source → d.dropped = d.before.keys.filter (keyIsOf m source) ∧
      ∃ any, d.answer = .evicted any ∧ (any = true ↔ d.dropped ≠ [])) ∧
    (∀ d ∈ events, d.call = .clear → d.dropped = d.before.keys) ∧
    (∀ d ∈ events, d.asks → d.dropped = []) ∧
    c.keys.Nodup ∧ ∀ key, key ∈ c.keys ↔ Kept key events := by
  intro c events
  obtain ⟨hasked, hfailed, hremoved⟩ := counts_afterAll calls
  obtain ⟨hnodup, hmem⟩ := keys_afterAll calls
  refine ⟨hasked, hfailed, hremoved, fun d hd m source hcall => ?_, fun d hd hcall => ?_, fun d hd hasks => ?_, hnodup,
    hmem⟩
  all_goals obtain ⟨b, hb⟩ := mem_events hd
  · rw [hcall] at hb
    rw [hb]
    exact ⟨dropped_evict b m source, _, rfl, evicted_iff b m source⟩
  · rw [hcall] at hb
    rw [hb]
    exact dropped_clear b
  · cases hcall : d.call with
    | get s source =>
      rw [hcall] at hb
      rw [hb]
      exact dropped_get b s source
    | evict m source => simp [Event.asks, hcall] at hasks
    | clear => simp [Event.asks, hcall] at hasks

end RecordLogic.Cache
