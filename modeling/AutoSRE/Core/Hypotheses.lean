import AutoSRE.Core.Repeats
import Mathlib.Data.List.Forall2

/-!
# The hypotheses of an incident

- **Well-formed hypotheses** (`WellFormed`). What `normalize_hypotheses` checks: `triage_node`
  stores only such hypotheses, and an investigation keeps them (`MoreEvidence.wellFormed`).
- **A step** (`HypothesesStep`, `step_hypotheses`). Three nodes write the hypotheses.
- **A refinement** (`OnlyJudged`, `JudgedAnswers`). `hypothesize_node` stores the dictionaries of
  the answer, whose identifiers alone it compares: the hypotheses stay well formed, and keep their
  evidence, when the answer changes confidences and statuses only (`hypotheses_intact`). An answer
  that gives an identifier alone drops the rest (`stripped_hypothesis_stored`).
-/

namespace AutoSRE
namespace Core

open Lib Py Safety Tools

/-! ## Well-formed hypotheses -/

/-- A number between 0 and 1. -/
def validConfidence : Json → Bool
  | .int i => decide (0 ≤ i ∧ i ≤ 1)
  | .float x => PyFloat.le .zero x && PyFloat.le x (.finite 1)
  | _ => false

/-- The hypothesis has a valid confidence and a valid status. -/
structure Judged (d : PyDict) : Prop where
  confidence : ∃ v, PyDict.get? d "confidence" = some v ∧ validConfidence v = true
  status : ∃ v, PyDict.get? d "status" = some (.str v) ∧ v ∈ validStatuses

/-- The evidence of the hypothesis is this list of strings. -/
def HasEvidence (d : PyDict) (xs : List String) : Prop :=
  PyDict.get? d "evidence" = some (.arr (xs.map .str))

/-- A hypothesis as `normalize_hypotheses` makes it. -/
structure WellFormed (d : PyDict) : Prop where
  judged : Judged d
  id : ∃ v, PyDict.get? d "id" = some (.str v) ∧ v ≠ ""
  description : ∃ v, PyDict.get? d "description" = some (.str v) ∧ v ≠ ""
  evidence : ∃ xs, HasEvidence d xs

theorem asConfidence_bounds {v : Json} {c : PyFloat} (h : asConfidence v = .ok c) :
    validConfidence (.float c) = true := by
  unfold asConfidence at h
  split at h
  · cases h
  · split at h
    · cases h
    · split at h
      · rename_i hb
        cases h
        exact hb
      · cases h

theorem normalizeHypothesis_wellFormed {index : Nat} {item : Json} {d : PyDict}
    (h : normalizeHypothesis index item = .ok d) : WellFormed d := by
  unfold normalizeHypothesis at h
  split at h
  · cases h
  · rename_i item' _
    simp only at h
    split at h
    · cases h
    · rename_i hne
      rw [not_or] at hne
      split at h
      · rename_i values _
        split at h
        · rename_i c hc
          cases h
          refine ⟨⟨⟨.float c, rfl, asConfidence_bounds hc⟩, _, rfl, ?_⟩, ⟨_, rfl, hne.1⟩,
            ⟨_, rfl, hne.2⟩, values.map Json.toStr, ?_⟩
          · split
            · assumption
            · decide
          · simp [HasEvidence, PyDict.get?, List.map_map, Function.comp_def]
        · cases h
      · cases h

theorem normalizeFrom_wellFormed {index : Nat} {items : List Json} {hs : List PyDict}
    (h : normalizeFrom index items = .ok hs) : ∀ d ∈ hs, WellFormed d := by
  induction items generalizing index hs with
  | nil =>
    cases h
    simp
  | cons item items ih =>
    unfold normalizeFrom at h
    split at h
    · cases h
    · rename_i d hd
      split at h
      · cases h
      · rename_i ds hds
        cases h
        intro d' hm
        rcases List.mem_cons.mp hm with rfl | hm
        · exact normalizeHypothesis_wellFormed hd
        · exact ih hds d' hm

theorem triageFallback_wellFormed (metadata : PyDict) :
    ∀ d ∈ triageFallback metadata, WellFormed d := by
  intro d hd
  rw [List.mem_singleton.mp hd]
  refine ⟨⟨⟨_, rfl, by decide +kernel⟩, _, rfl, by decide⟩, ⟨_, rfl, by decide⟩, ⟨_, rfl, ?_⟩,
    [], rfl⟩
  intro he
  simpa using congrArg String.toList he

/-- What `triage_node` stores is well formed. -/
theorem normalizeSafe_wellFormed (raw : Json) {fallback : List PyDict}
    (hf : ∀ d ∈ fallback, WellFormed d) :
    ∀ d ∈ normalizeHypothesesSafe raw fallback, WellFormed d := by
  unfold normalizeHypothesesSafe
  split
  · split
    · rename_i items hs h
      unfold normalizeHypotheses at h
      split at h
      · cases h
      · exact normalizeFrom_wellFormed h
    · exact hf
  · exact hf

/-! ## Related lists -/

section related

variable {α : Type} {R : α → α → Prop} {xs ys : List α}

theorem related_right (h : List.Forall₂ R xs ys) {y : α} (hy : y ∈ ys) : ∃ x ∈ xs, R x y := by
  induction h with
  | nil => cases hy
  | @cons x y' xs ys hr _ ih =>
    rcases List.mem_cons.mp hy with rfl | hy
    · exact ⟨x, List.mem_cons_self, hr⟩
    · obtain ⟨x', hx, hr'⟩ := ih hy
      exact ⟨x', List.mem_cons_of_mem _ hx, hr'⟩

theorem related_left (h : List.Forall₂ R xs ys) {x : α} (hx : x ∈ xs) : ∃ y ∈ ys, R x y :=
  related_right (R := fun y x => R x y) h.flip hx

end related

/-! ## Investigations -/

/-- An investigation only adds evidence. -/
structure MoreEvidence (d d' : PyDict) : Prop where
  others : ∀ k, k ≠ "evidence" → PyDict.get? d' k = PyDict.get? d k
  evidence : ∀ xs, HasEvidence d xs → ∃ ys, HasEvidence d' (xs ++ ys)

theorem appendEvidence_more {results : List String} {d d' : PyDict}
    (h : appendEvidence results d = .ok d') : MoreEvidence d d' := by
  unfold appendEvidence at h
  split at h
  · rename_i evidence he
    cases h
    refine ⟨fun k hk => PyDict.get?_set_ne d _ hk.symm, fun xs hx => ⟨results, ?_⟩⟩
    have hevidence : evidence = xs.map .str := by
      have hx' : PyDict.get? d "evidence" = some (.arr (xs.map .str)) := hx
      simpa [PyDict.getD, hx', Json.toList, eq_comm] using he
    simp [HasEvidence, hevidence]
  · cases h

theorem appendAllEvidence_more {results : List String} {hs hs' : List PyDict}
    (h : appendAllEvidence results hs = .ok hs') : List.Forall₂ MoreEvidence hs hs' := by
  induction hs generalizing hs' with
  | nil =>
    cases h
    exact .nil
  | cons d ds ih =>
    unfold appendAllEvidence at h
    split at h
    · cases h
    · rename_i d' hd
      split at h
      · cases h
      · rename_i ds' hds
        cases h
        exact .cons (appendEvidence_more hd) (ih hds)

theorem MoreEvidence.wellFormed {d d' : PyDict} (h : MoreEvidence d d') (hd : WellFormed d) :
    WellFormed d' := by
  obtain ⟨⟨hconf, hstatus⟩, hid, hdesc, xs, hx⟩ := hd
  obtain ⟨ys, hy⟩ := h.evidence xs hx
  refine ⟨⟨?_, ?_⟩, ?_, ?_, xs ++ ys, hy⟩
  · rwa [h.others "confidence" (by decide)]
  · rwa [h.others "status" (by decide)]
  · rwa [h.others "id" (by decide)]
  · rwa [h.others "description" (by decide)]

/-! ## Refinements -/

/-- Only the confidence and the status differ. -/
def SameButJudgement (d d' : PyDict) : Prop :=
  ∀ k, k ≠ "confidence" → k ≠ "status" → PyDict.get? d' k = PyDict.get? d k

/-- The hypotheses are the same ones, in some order, up to their confidences and statuses. -/
def OnlyJudged (hs hs' : List PyDict) : Prop :=
  ∃ hs₁, hs'.Perm hs₁ ∧ List.Forall₂ SameButJudgement hs hs₁

theorem OnlyJudged.refl (hs : List PyDict) : OnlyJudged hs hs :=
  ⟨hs, .refl hs, List.forall₂_same.mpr fun _ _ _ _ _ => rfl⟩

/-- No identifier is added, duplicated or removed. -/
theorem OnlyJudged.ids {hs hs' : List PyDict} (h : OnlyJudged hs hs') :
    (originalIds hs').Perm (originalIds hs) := by
  obtain ⟨hs₁, hperm, hall⟩ := h
  have hsame : originalIds hs₁ = originalIds hs := by
    induction hall generalizing hs' with
    | nil => rfl
    | @cons d d' ds ds' hd _ ih =>
      have hid : PyDict.getD d' "id" .null = PyDict.getD d "id" .null := by
        rw [PyDict.getD, hd "id" (by decide) (by decide), PyDict.getD]
      simp only [originalIds, List.filterMap_cons, hid]
      rw [show ds'.filterMap _ = originalIds ds' from rfl, ih (.refl ds')]
      rfl
  exact hsame ▸ hperm.filterMap _

/-- A hypothesis that is judged anew stays well formed. -/
theorem SameButJudgement.wellFormed {d d' : PyDict} (h : SameButJudgement d d') (hj : Judged d')
    (hd : WellFormed d) : WellFormed d' := by
  obtain ⟨-, hid, hdesc, xs, hx⟩ := hd
  refine ⟨hj, ?_, ?_, xs, ?_⟩
  · rwa [h "id" (by decide) (by decide)]
  · rwa [h "description" (by decide) (by decide)]
  · unfold HasEvidence
    rwa [h "evidence" (by decide) (by decide)]

/-! ## Later states -/

/-- The hypothesis is still there, with its evidence. -/
structure Carries (d d' : PyDict) : Prop where
  id : PyDict.get? d' "id" = PyDict.get? d "id"
  description : PyDict.get? d' "description" = PyDict.get? d "description"
  evidence : ∀ xs, HasEvidence d xs → ∃ ys, HasEvidence d' (xs ++ ys)

theorem Carries.refl (d : PyDict) : Carries d d :=
  ⟨rfl, rfl, fun xs hx => ⟨[], by simpa using hx⟩⟩

theorem Carries.trans {d₁ d₂ d₃ : PyDict} (h : Carries d₁ d₂) (h' : Carries d₂ d₃) :
    Carries d₁ d₃ := by
  refine ⟨h'.id.trans h.id, h'.description.trans h.description, fun xs hx => ?_⟩
  obtain ⟨ys, hy⟩ := h.evidence xs hx
  obtain ⟨zs, hz⟩ := h'.evidence _ hy
  exact ⟨ys ++ zs, by rwa [← List.append_assoc]⟩

theorem MoreEvidence.carries {d d' : PyDict} (h : MoreEvidence d d') : Carries d d' :=
  ⟨h.others "id" (by decide), h.others "description" (by decide), h.evidence⟩

theorem SameButJudgement.carries {d d' : PyDict} (h : SameButJudgement d d') : Carries d d' := by
  refine ⟨h "id" (by decide) (by decide), h "description" (by decide) (by decide),
    fun xs hx => ⟨[], ?_⟩⟩
  unfold HasEvidence
  rw [h "evidence" (by decide) (by decide), List.append_nil]
  exact hx

/-- Every hypothesis of the first state is in the second. -/
def Carried (t t' : Thread) : Prop :=
  ∀ d ∈ t.values.hypotheses, ∃ d' ∈ t'.values.hypotheses, Carries d d'

section condition

variable (ctx : GraphContext)

/-- The answer is used, and these of its hypotheses have a known identifier. -/
structure Keeps (env : NodeEnv) (s : AgentState) (kept : List PyDict) : Prop where
  answer : ∃ r parsed usage, env.llm.outcome.parsed "hypothesize" true = .ok (r, parsed) ∧
    refinedWith (originalIds s.hypotheses) (coerceDictList (orElse (PyDict.get? parsed "hypotheses")
      (orElse (PyDict.get? parsed "items") (.arr (s.hypotheses.map .obj))))) = .ok kept ∧
    accumulateUsage ctx s.usage r env.llm.promptChars = .ok usage
  readable : ∃ c, topConfidence kept = .ok c

/-- The answers that `hypothesize_node` uses give the stored hypotheses, each with a valid
confidence and a valid status. -/
def JudgedAnswers (t : Thread) (a : Label) : Prop :=
  ∀ env current kept, a = .run env → t.next = .node .hypothesize →
    topConfidence t.values.hypotheses = .ok current → ctx.confidenceFastPath.le current = false →
    0 < t.values.iterationBudget → Keeps ctx env t.values kept → kept ≠ [] →
    (∀ d ∈ kept, Judged d) ∧ OnlyJudged t.values.hypotheses kept

/-- The hypotheses of a state are well formed, `hypothesize_node` only judges them, and they are in
every later state, with their evidence. -/
structure Intact (C : Thread → Label → Prop) (t : Thread) : Prop where
  wellFormed : ∀ d ∈ t.values.hypotheses, WellFormed d
  judged : ∀ a t' fs, C t a → t.next = .node .hypothesize →
    (graph ctx).step t a = some (t', fs) → OnlyJudged t.values.hypotheses t'.values.hypotheses
  persists : ∀ t', (graph ctx).Later C t t' → Carried t t'

/-! ## Steps -/

/-- What a step does to the hypotheses. -/
inductive HypothesesStep (t : Thread) (a : Label) (t' : Thread) : Prop
  | kept : t'.values.hypotheses = t.values.hypotheses → HypothesesStep t a t'
  | triaged : t.next = .node .triage → (∀ d ∈ t'.values.hypotheses, WellFormed d) →
      HypothesesStep t a t'
  | investigated (results : List String) : t.next = .node .investigate →
      appendAllEvidence results t.values.hypotheses = .ok t'.values.hypotheses →
      HypothesesStep t a t'
  | refined (env : NodeEnv) (current : PyFloat) : a = .run env → t.next = .node .hypothesize →
      topConfidence t.values.hypotheses = .ok current →
      ctx.confidenceFastPath.le current = false → 0 < t.values.iterationBudget →
      Keeps ctx env t.values t'.values.hypotheses → t'.values.hypotheses ≠ [] →
      HypothesesStep t a t'

variable {ctx}

/-- A refinement keeps the hypotheses, or stores those that the answer keeps. -/
theorem hypothesizeAnswer_keeps {env : NodeEnv} {s : AgentState} {r : Refinement}
    (h : hypothesizeAnswer ctx env s = .ok r) :
    r.hypotheses = s.hypotheses ∨ (Keeps ctx env s r.hypotheses ∧ r.hypotheses ≠ []) := by
  unfold hypothesizeAnswer at h
  split at h
  · cases h
  · rename_i response parsed hp
    split at h
    · cases h
    · rename_i hypotheses hr
      split at h
      · cases h
      · rename_i confidence hc
        simp only at h
        split at h
        · cases h
        · rename_i usage hu
          cases h
          simp only [refine] at hr
          cases hk : refinedWith (originalIds s.hypotheses) (coerceDictList
              (orElse (PyDict.get? parsed "hypotheses")
                (orElse (PyDict.get? parsed "items") (.arr (s.hypotheses.map .obj))))) with
          | error exc => simp [hk, Except.map] at hr
          | ok kept =>
            simp only [hk, Except.map, Except.ok.injEq] at hr
            by_cases hne : kept = []
            · left
              simpa [hne, eq_comm] using hr
            · right
              obtain rfl : kept = hypotheses := by simpa [hne] using hr
              exact ⟨⟨⟨response, parsed, usage, hp, hk, hu⟩, confidence, hc⟩, hne⟩

theorem step_hypotheses {t t' : Thread} {a : Label} {fs : List Event}
    (h : (graph ctx).step t a = some (t', fs)) : HypothesesStep ctx t a t' := by
  obtain ⟨p, env, resume, metrics, hstep, hnext⟩ := step_cases h
  obtain ⟨rfl, -⟩ := Prod.mk.inj hstep
  have hx := runNode_exit ctx env t.values resume metrics p
  generalize runNode ctx env resume metrics p t.values = run at hx
  have hn : p ≠ .approve → t.next = .node p ∧ a = .run env := by
    intro hp
    rcases hnext with ⟨hn, -, ha⟩ | ⟨-, he, -⟩
    · exact ⟨hn, ha⟩
    · exact absurd he hp
  cases p with
  | triage =>
    obtain ⟨hn, -⟩ := hn (by decide)
    cases hx with
    | noAction usage =>
      refine .triaged hn fun d hd => ?_
      cases hd
    | hypotheses raw usage =>
      exact .triaged hn (normalizeSafe_wellFormed raw (triageFallback_wellFormed _))
  | investigate =>
    obtain ⟨hn, -⟩ := hn (by decide)
    cases hx with
    | gathered results hypotheses log usage he _ => exact .investigated results hn he
    | _ => exact .kept rfl
  | hypothesize =>
    obtain ⟨hn, ha⟩ := hn (by decide)
    cases hx with
    | refined current r _ hc hlow hb hr =>
      rcases hypothesizeAnswer_keeps hr with hs | ⟨hk, hne⟩
      · exact .kept hs
      · exact .refined env current ha hn hc hlow hb hk hne
    | _ => exact .kept rfl
  | propose => cases hx <;> exact .kept rfl
  | approve => cases hx <;> exact .kept rfl
  | execute => cases hx <;> exact .kept rfl
  | verify => cases hx <;> exact .kept rfl
  | complete =>
    obtain ⟨_, _, _, _, _, he⟩ := completeNode_eq env t.values metrics
    rw [show run = _ from hx, he]
    exact .kept rfl

/-- There are no hypotheses before `triage_node`, which a run executes once. -/
theorem no_hypotheses_before_triage {C : Thread → Label → Prop} {n : Nat} {es : List Event}
    {t : Thread} (hr : (graph ctx).Run C n es t) (hn : t.next = .node .triage) :
    t.values.hypotheses = [] := by
  revert hn
  refine hr.stateInv (I := fun t => t.next = .node .triage → t.values.hypotheses = [])
    (fun s hi _ => ?_) fun s a s' fs _ _ hs hn => ?_
  · obtain ⟨metadata, budget, now, hv, -⟩ := hi
    rw [hv]
    rfl
  · obtain ⟨p, -, hsucc⟩ := step_edge hs
    have hm := hsucc _ hn
    cases p <;> simp [successors] at hm

/-! ## Runs -/

theorem wellFormed_step {t t' : Thread} {a : Label} {fs : List Event}
    (hw : ∀ d ∈ t.values.hypotheses, WellFormed d) (hc : JudgedAnswers ctx t a)
    (h : (graph ctx).step t a = some (t', fs)) : ∀ d ∈ t'.values.hypotheses, WellFormed d := by
  cases step_hypotheses h with
  | kept he => rwa [he]
  | triaged _ hw' => exact hw'
  | investigated results _ he =>
    intro d' hd'
    obtain ⟨d, hd, hmore⟩ := related_right (appendAllEvidence_more he) hd'
    exact hmore.wellFormed (hw d hd)
  | refined env current ha hn hcur hlow hb hk hne =>
    obtain ⟨hjudged, hs₁, hperm, hall⟩ := hc env current _ ha hn hcur hlow hb hk hne
    intro d' hd'
    obtain ⟨d, hd, hsame⟩ := related_right hall (hperm.mem_iff.mp hd')
    exact hsame.wellFormed (hjudged d' hd') (hw d hd)

theorem carried_step {n : Nat} {es fs : List Event} {t t' : Thread} {a : Label}
    (hr : (graph ctx).Run (JudgedAnswers ctx) n es t) (hc : JudgedAnswers ctx t a)
    (h : (graph ctx).step t a = some (t', fs)) : Carried t t' := by
  intro d hd
  cases step_hypotheses h with
  | kept he => exact ⟨d, he ▸ hd, .refl d⟩
  | triaged hn _ =>
    rw [no_hypotheses_before_triage hr hn] at hd
    cases hd
  | investigated results _ he =>
    obtain ⟨d', hd', hmore⟩ := related_left (appendAllEvidence_more he) hd
    exact ⟨d', hd', hmore.carries⟩
  | refined env current ha hn hcur hlow hb hk hne =>
    obtain ⟨-, hs₁, hperm, hall⟩ := hc env current _ ha hn hcur hlow hb hk hne
    obtain ⟨d', hd', hsame⟩ := related_left hall hd
    exact ⟨d', hperm.mem_iff.mpr hd', hsame.carries⟩

/-- The hypotheses stay intact, when the answers that are used give the stored hypotheses with valid
confidences and statuses. -/
theorem hypotheses_intact {n : Nat} {es : List Event} {t : Thread}
    (hr : (graph ctx).Run (JudgedAnswers ctx) n es t) : Intact ctx (JudgedAnswers ctx) t := by
  refine ⟨?_, fun a t' fs hc hn h => ?_, fun t' hl => ?_⟩
  · refine hr.stateInv (I := fun t => ∀ d ∈ t.values.hypotheses, WellFormed d) (fun s hi => ?_)
      fun s a s' fs hw hc hs => wellFormed_step hw hc hs
    obtain ⟨metadata, budget, now, hv, -⟩ := hi
    rw [hv]
    intro d hd
    cases hd
  · cases step_hypotheses h with
    | kept he => exact he ▸ .refl _
    | triaged hn' _ | investigated _ hn' _ =>
      rw [hn] at hn'
      cases hn'
    | refined env current ha _ hcur hlow hb hk hne =>
      exact (hc env current _ ha hn hcur hlow hb hk hne).2
  · refine hr.laterInv (R := Carried) (fun s d hd => ⟨d, hd, .refl d⟩)
      (fun s₁ s₂ s₃ h₁ h₂ d hd => ?_) (fun _ _ _ _ _ _ hr hc hs => carried_step hr hc hs) hl
    obtain ⟨d', hd', h'⟩ := h₁ d hd
    obtain ⟨d'', hd'', h''⟩ := h₂ d' hd'
    exact ⟨d'', hd'', h'.trans h''⟩

end condition

/-! ## The sample incidents -/

/-- An environment whose answer gives these hypotheses. -/
def hypothesesEnv (hypotheses : List PyDict) : NodeEnv :=
  sampleEnv (.obj [("hypotheses", .arr (hypotheses.map .obj))])

/-- A hypothesis of the sample incident. -/
def sampleHypothesis (confidence : PyFloat) (status : String) : PyDict :=
  [("id", .str "H1"), ("description", .str "full"), ("confidence", .float confidence),
    ("evidence", .arr []), ("status", .str status)]

/-- The hypothesis is one of the sample incident, with a valid confidence and a valid status. -/
def isSample : PyDict → Bool
  | [(k₁, .str id), (k₂, .str description), (k₃, c), (k₄, .arr []), (k₅, .str status)] =>
    [k₁, k₂, k₃, k₄, k₅] == ["id", "description", "confidence", "evidence", "status"] &&
      id == "H1" && description == "full" && validConfidence c && decide (status ∈ validStatuses)
  | _ => false

theorem isSample_eq {d : PyDict} (h : isSample d = true) :
    ∃ c status, validConfidence c = true ∧ status ∈ validStatuses ∧
      d = [("id", .str "H1"), ("description", .str "full"), ("confidence", c),
        ("evidence", .arr []), ("status", .str status)] := by
  unfold isSample at h
  split at h
  · rename_i k₁ id k₂ description k₃ c k₄ k₅ status
    simp only [Bool.and_eq_true, beq_iff_eq, decide_eq_true_eq, List.cons.injEq, and_true] at h
    obtain ⟨⟨⟨⟨⟨rfl, rfl, rfl, rfl, rfl⟩, rfl⟩, rfl⟩, hc⟩, hs⟩ := h
    exact ⟨c, status, hc, hs, rfl⟩
  · cases h

theorem isSample_same {d d' : PyDict} (h : isSample d = true) (h' : isSample d' = true) :
    Judged d' ∧ SameButJudgement d d' := by
  obtain ⟨c, status, -, -, rfl⟩ := isSample_eq h
  obtain ⟨c', status', hc, hs, rfl⟩ := isSample_eq h'
  refine ⟨⟨⟨c', rfl, hc⟩, status', rfl, hs⟩, fun k hk hk' => ?_⟩
  apply PyDict.get?_cons_congr
  apply PyDict.get?_cons_congr
  rw [PyDict.get?_cons_ne _ _ hk.symm, PyDict.get?_cons_ne _ _ hk.symm]
  apply PyDict.get?_cons_congr
  rw [PyDict.get?_cons_ne _ _ hk'.symm, PyDict.get?_cons_ne _ _ hk'.symm]

/-- A used answer and the state have one hypothesis of the sample incident. -/
def checkJudged (t : Thread) : Label → Bool
  | .run env =>
    match t.next, env.llm.outcome.parsed "hypothesize" true with
    | .node .hypothesize, .ok (_, parsed) =>
      match refinedWith (originalIds t.values.hypotheses) (coerceDictList
          (orElse (PyDict.get? parsed "hypotheses") (orElse (PyDict.get? parsed "items")
            (.arr (t.values.hypotheses.map .obj))))), t.values.hypotheses with
      | .ok [d'], [d] => isSample d && isSample d'
      | _, _ => false
    | _, _ => true
  | _ => true

theorem judgedAnswers_of_check (ctx : GraphContext) (t : Thread) (a : Label)
    (h : checkJudged t a = true) : JudgedAnswers ctx t a := by
  rintro env current kept rfl hn - - - ⟨⟨r, parsed, usage, hp, hk, -⟩, -⟩ -
  simp only [checkJudged, hn, hp, hk] at h
  split at h
  · rename_i d' d hkept hs
    obtain rfl := Except.ok.inj hkept
    rw [Bool.and_eq_true] at h
    obtain ⟨hj, hsame⟩ := isSample_same h.1 h.2
    rw [hs]
    exact ⟨fun x hx => List.mem_singleton.mp hx ▸ hj, [d'], .refl _, .cons hsame .nil⟩
  · cases h

/-- The steps of an incident whose hypothesis has the confidence 0.3 and is refined. -/
def refinedLabels (refined : PyDict) : List Label :=
  List.replicate 2 (.run (hypothesesEnv [sampleHypothesis (.ofRat (mkRat 3 10)) "proposed"])) ++
    [.run (hypothesesEnv [refined])]

/-- A hypothesis that is confirmed. -/
theorem hypotheses_intact_confirmed :
    ∃ n es t, (graph restartContext).Run (JudgedAnswers restartContext) n es t ∧
      t.values.lastTopConfidence = .ofRat (mkRat 7 10) ∧
      Intact restartContext (JudgedAnswers restartContext) t := by
  have hexec : (((graph restartContext).restrict checkJudged).exec sampleThread
      (refinedLabels (sampleHypothesis (.ofRat (mkRat 7 10)) "confirmed"))).any
      (fun r => decide (r.1.values.lastTopConfidence = .ofRat (mkRat 7 10))) = true := by
    decide +kernel
  obtain ⟨t, es, hr, hc⟩ := Sys.exists_checked_run (judgedAnswers_of_check restartContext)
    sampleThread_initial hexec
  exact ⟨_, es, t, hr, by simpa using hc, hypotheses_intact hr⟩

/-- An answer that gives an identifier alone drops the description, the evidence and the status. -/
theorem stripped_hypothesis_stored :
    ¬ ∀ (ctx : GraphContext) (n : Nat) (es : List Event) (t : Thread),
      (graph ctx).Run Sys.anyStep n es t → Intact ctx Sys.anyStep t := by
  intro hall
  have hexec : ((graph restartContext).exec sampleThread
      (refinedLabels [("id", .str "H1")])).any (fun r => r.1.values.hypotheses.any fun d =>
        !PyDict.contains d "description") = true := by
    decide +kernel
  obtain ⟨t, es, hr, hc⟩ := Sys.exists_any_run sampleThread_initial hexec
  obtain ⟨d, hd, hno⟩ := List.any_eq_true.mp hc
  obtain ⟨v, hv, -⟩ := ((hall _ _ es t hr).wellFormed d hd).description
  simp [PyDict.contains, hv] at hno

end Core
end AutoSRE
