import Mathlib.Data.List.Induction
import Mathlib.Data.List.TakeWhile
import RecordLogic.Proofs.ScannerSteps

/-!
# Nothing is lost in tokens

The texts of the tokens and the blanks between them are the text that was scanned, and a token stands where its
location says: behind so many line breaks and so many characters since the last one.
-/

namespace RecordLogic

open Text

/-! ## Locations -/

def Location.behind (cs : List Char) : Location :=
  ⟨1 + cs.count '\n', 1 + (cs.reverse.takeWhile (· ≠ '\n')).length⟩

theorem Location.past_start (cs : List Char) : Location.start.past cs = .behind cs := by
  induction cs using List.reverseRecOn with
  | nil => rfl
  | append_singleton cs c ih =>
    rw [past_append, ih]
    by_cases hc : c = '\n'
    · simp [past, step, behind, hc]
      omega
    · have hcount : [c].count '\n' = 0 := List.count_eq_zero.mpr (by simpa using Ne.symm hc)
      simp [past, step, behind, hc, hcount]
      omega

/-! ## Layouts -/

def written (parts : List (List Char × Token)) : List Char := parts.flatMap fun p => p.1 ++ p.2.raw.toList

theorem written_cons (p : List Char × Token) (parts : List (List Char × Token)) :
    written (p :: parts) = p.1 ++ p.2.raw.toList ++ written parts := by
  simp [written]

/-- How tokens make up a text from a location on: blanks before each of them and nothing else, each where its
location says, the mark of the end once and last. -/
structure Layout (start : Location) (parts : List (List Char × Token)) (text : List Char) : Prop where
  blank : ∀ p ∈ parts, ∀ c ∈ p.1, isBlank c
  text_eq : text = written parts
  location : ∀ before blanks t after, parts = before ++ (blanks, t) :: after →
    t.location = start.past (written before ++ blanks)
  ends : ∃ words blanks stop, parts = words ++ [(blanks, stop)] ∧ stop.kind = .stop ∧ stop.raw = "" ∧
    ∀ p ∈ words, p.2.kind ≠ .stop ∧ p.2.raw ≠ ""
  faithful : ∀ p ∈ parts, p.2.Faithful

theorem layout_stop {start : Location} {blanks : List Char} {t : Token} (hblanks : ∀ c ∈ blanks, isBlank c)
    (hlocation : t.location = start.past blanks) (hkind : t.kind = .stop) (hraw : t.raw = "") (ht : t.Faithful) :
    Layout start [(blanks, t)] blanks where
  blank := by simpa using hblanks
  text_eq := by simp [written, hraw]
  location := by
    intro before w u after h
    cases before with
    | nil =>
      cases h
      simpa [written] using hlocation
    | cons p before => simp at h
  ends := ⟨[], blanks, t, rfl, hkind, hraw, by simp⟩
  faithful := by simpa using ht

theorem Layout.cons {start : Location} {blanks text : List Char} {t : Token} {parts : List (List Char × Token)}
    (hblanks : ∀ c ∈ blanks, isBlank c) (hlocation : t.location = start.past blanks) (hkind : t.kind ≠ .stop)
    (hraw : t.raw ≠ "") (ht : t.Faithful) (h : Layout (t.location.past t.raw.toList) parts text) :
    Layout start ((blanks, t) :: parts) (blanks ++ t.raw.toList ++ text) where
  blank := by
    intro p hp
    rcases List.mem_cons.mp hp with rfl | hp
    · exact hblanks
    · exact h.blank p hp
  text_eq := by rw [written_cons, ← h.text_eq]
  location := by
    intro before w u after hparts
    cases before with
    | nil =>
      cases hparts
      simpa [written] using hlocation
    | cons p before =>
      cases hparts
      have hu := h.location before w u after rfl
      rw [hu, hlocation, ← Location.past_append, ← Location.past_append, written_cons]
      simp
  ends := by
    obtain ⟨words, w, stop, rfl, hstop, hempty, hwords⟩ := h.ends
    refine ⟨(blanks, t) :: words, w, stop, rfl, hstop, hempty, ?_⟩
    intro p hp
    rcases List.mem_cons.mp hp with rfl | hp
    · exact ⟨hkind, hraw⟩
    · exact hwords p hp
  faithful := by
    intro p hp
    rcases List.mem_cons.mp hp with rfl | hp
    · exact ht
    · exact h.faithful p hp

/-! ## Scanning -/

namespace Scanner

variable {s s' : Scanner} {t : Token}

/-- One step: blanks are passed over, and then the token takes its text, which is empty only at the end. -/
theorem next_token (h : s.next = (.ok t, s')) : ∃ blanks, (∀ c ∈ blanks, isBlank c) ∧
    s.rest = blanks ++ t.raw.toList ++ s'.rest ∧ t.location = s.location.past blanks ∧
    s'.location = t.location.past t.raw.toList ∧ t.Faithful ∧
    (t.kind = .stop ∧ t.raw = "" ∧ s'.rest = [] ∨ t.kind ≠ .stop ∧ t.raw ≠ "") := by
  have hrest : s.rest.takeWhile isBlank ++ s.rest.dropWhile isBlank = s.rest := List.takeWhile_append_dropWhile
  have hblanks : ∀ c ∈ s.rest.takeWhile isBlank, isBlank c := fun c hc => List.mem_takeWhile_imp hc
  refine ⟨s.rest.takeWhile isBlank, hblanks, ?_⟩
  unfold next skipBlanks at h
  dsimp only at h
  split at h
  · rename_i hdrop
    cases h
    exact ⟨by simpa [hdrop] using hrest.symm, rfl, rfl, trivial, .inl ⟨rfl, rfl, hdrop⟩⟩
  · rename_i c cs hdrop
    split at h
    · rename_i kind literal raw rest hmunch
      cases h
      have htakes := munch_takes hmunch
      have hraw : String.ofList raw ≠ "" := fun hempty => htakes.ne_nil (by simpa using hempty)
      have hall : s.rest = s.rest.takeWhile isBlank ++ (raw ++ rest) := by rw [← htakes.append_eq, ← hdrop, hrest]
      exact ⟨by simpa using hall, rfl, by simp, htakes.faithful _, .inr ⟨htakes.not_stop, hraw⟩⟩
    · cases h

/-- As many steps as there are characters left, and one more, come to the end. -/
theorem tokensWithin_layout {fuel : Nat} {tokens : List Token} (hfuel : s.rest.length < fuel)
    (h : s.tokensWithin fuel = .ok tokens) : ∃ parts, parts.map (·.2) = tokens ∧ Layout s.location parts s.rest := by
  induction fuel generalizing s tokens with
  | zero => omega
  | succ fuel ih =>
    rw [tokensWithin] at h
    split at h
    · cases h
    rename_i t s' hnext
    obtain ⟨blanks, hblanks, hrest, hlocation, hlocation', ht, ⟨hkind, hraw, hend⟩ | ⟨hkind, hraw⟩⟩ := next_token hnext
    · rw [if_pos hkind] at h
      cases h
      refine ⟨[(blanks, t)], rfl, ?_⟩
      have htext : s.rest = blanks := by simpa [hraw, hend] using hrest
      rw [htext]
      exact layout_stop hblanks hlocation hkind hraw ht
    · rw [if_neg hkind] at h
      split at h <;> cases h
      rename_i ts hts
      -- The token took at least one character, so the fuel left covers what is left.
      have hpos : 0 < t.raw.toList.length := List.length_pos_iff.mpr (by simpa using hraw)
      have hlength := congrArg List.length hrest
      simp only [List.length_append] at hlength
      obtain ⟨parts, rfl, hparts⟩ := ih (by omega) hts
      rw [hlocation'] at hparts
      exact ⟨(blanks, t) :: parts, rfl, hrest ▸ hparts.cons hblanks hlocation hkind hraw ht⟩

end Scanner

/-- **Tokens keep the text.** The tokens of a text, each behind a run of blanks, make up the text. All but the last
have a text of their own, and the last is the only mark of the end. Each stands where its location says, and what it
carries is what its text says. -/
theorem tokenize_lossless {source : String} {tokens : List Token} (h : tokenize source = .ok tokens) :
    ∃ parts : List (List Char × Token), parts.map (·.2) = tokens ∧ (∀ p ∈ parts, ∀ c ∈ p.1, isBlank c) ∧
      source.toList = written parts ∧
      (∃ words stop, tokens = words ++ [stop] ∧ stop.kind = .stop ∧ stop.raw = "" ∧
        stop.location = .behind source.toList ∧ ∀ t ∈ words, t.kind ≠ .stop ∧ t.raw ≠ "") ∧
      (∀ before blanks t after, parts = before ++ (blanks, t) :: after →
        t.location = .behind (written before ++ blanks)) ∧
      ∀ t ∈ tokens, t.Faithful := by
  obtain ⟨parts, rfl, hparts⟩ := Scanner.tokensWithin_layout (s := .ofText source) (Nat.lt_succ_self _) h
  have hlocation : ∀ before blanks t after, parts = before ++ (blanks, t) :: after →
      t.location = .behind (written before ++ blanks) := by
    intro before blanks t after heq
    rw [← Location.past_start]
    exact hparts.location before blanks t after heq
  obtain ⟨words, blanks, stop, heq, hkind, hraw, hwords⟩ := hparts.ends
  have htext : source.toList = written words ++ blanks := by
    have h : source.toList = written parts := hparts.text_eq
    rw [heq] at h
    simpa [written, hraw] using h
  refine ⟨parts, rfl, hparts.blank, hparts.text_eq, ⟨words.map (·.2), stop, by simp [heq], hkind, hraw, ?_, ?_⟩,
    hlocation, ?_⟩
  · rw [htext]
    exact hlocation words blanks stop [] heq
  · intro t ht
    obtain ⟨p, hp, rfl⟩ := List.mem_map.mp ht
    exact hwords p hp
  · intro t ht
    obtain ⟨p, hp, rfl⟩ := List.mem_map.mp ht
    exact hparts.faithful p hp

/-- A string with a line break in it moves what follows to the next line. -/
theorem tokenize_lossless_lines :
    let source := "'é\n' A.b"
    ∃ tokens parts, tokenize source = .ok tokens ∧ tokens.map Token.location = [⟨1, 1⟩, ⟨2, 3⟩, ⟨2, 6⟩] ∧
      parts.map (·.2) = tokens ∧ source.toList = written parts ∧
      (∀ before blanks t after, parts = before ++ (blanks, t) :: after →
        t.location = .behind (written before ++ blanks)) ∧
      ∀ t ∈ tokens, t.Faithful := by
  intro source
  have htokens : tokenize "'é\n' A.b" = .ok [⟨.string, some (.string "é\n"), "'é\n'", ⟨1, 1⟩⟩,
    ⟨.name, none, "A.b", ⟨2, 3⟩⟩, ⟨.stop, none, "", ⟨2, 6⟩⟩] := rfl
  obtain ⟨parts, hparts, -, htext, -, hlocation, hfaithful⟩ := tokenize_lossless htokens
  exact ⟨_, parts, htokens, rfl, hparts, htext, hlocation, hfaithful⟩

end RecordLogic
