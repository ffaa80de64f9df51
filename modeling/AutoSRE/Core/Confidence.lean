import AutoSRE.Core.Dispatch

/-!
# What the nodes read of hypotheses and of an alert

- **Confidence** (`Floatable`). The confidence of the top hypothesis can always be read: the
  hypotheses of `triage_node` are normalised (`floatable_normalizeSafe`), an investigation keeps
  the confidences (`floatable_appendAllEvidence`), and a refinement is kept only after its
  confidence is read (`hypothesizeAnswer_floatable`).
- **Evidence** (`EvidenceOk`). The evidence of a hypothesis can be extended when it is a sequence.
- **Metadata.** The category of an alert can be looked up (`proposeCategory_modelDump`).
-/

namespace AutoSRE
namespace Core

open Lib Py Safety Tools

/-! ## The confidence of the top hypothesis -/

theorem maxHypothesis_mem (best : PyDict) (hs : List PyDict) :
    maxHypothesis best hs ∈ best :: hs := by
  induction hs generalizing best with
  | nil => exact List.mem_cons_self
  | cons h hs ih =>
    unfold maxHypothesis
    have hm := ih (if (confidenceValue best).lt (confidenceValue h) then h else best)
    rcases List.mem_cons.mp hm with he | hm
    · rw [he]
      split
      · exact List.mem_cons_of_mem _ List.mem_cons_self
      · exact List.mem_cons_self
    · exact List.mem_cons_of_mem _ (List.mem_cons_of_mem _ hm)

/-- Hypotheses with a number as their confidence. -/
theorem floatable_of_floats {hs : List PyDict}
    (h : ∀ d ∈ hs, ∃ c, PyDict.get? d "confidence" = some (.float c)) : Floatable hs := by
  unfold Floatable topConfidence
  cases hs with
  | nil => exact ⟨_, rfl⟩
  | cons d ds =>
    obtain ⟨c, hc⟩ := h _ (maxHypothesis_mem d ds)
    simp only [topHypothesis, readConfidence, hc, orElse]
    split <;> exact ⟨_, rfl⟩

theorem normalizeHypothesis_confidence {index : Nat} {item : Json} {d : PyDict}
    (h : normalizeHypothesis index item = .ok d) :
    ∃ c, PyDict.get? d "confidence" = some (.float c) := by
  unfold normalizeHypothesis at h
  split at h
  · cases h
  · simp only at h
    split at h
    · cases h
    · split at h
      · split at h
        · cases h
          exact ⟨_, rfl⟩
        · cases h
      · cases h

theorem normalizeFrom_confidence {index : Nat} {items : List Json} {hs : List PyDict}
    (h : normalizeFrom index items = .ok hs) :
    ∀ d ∈ hs, ∃ c, PyDict.get? d "confidence" = some (.float c) := by
  induction items generalizing index hs with
  | nil => cases h; simp
  | cons item items ih =>
    unfold normalizeFrom at h
    split at h
    · cases h
    · rename_i d hd
      split at h
      · cases h
      · rename_i ds hds
        cases h
        intro d' hm
        rcases List.mem_cons.mp hm with rfl | hm
        · exact normalizeHypothesis_confidence hd
        · exact ih hds d' hm

/-- The confidence of a normalised list, or of the fallback, can be read. -/
theorem floatable_normalizeSafe (raw : Json) {fallback : List PyDict} (hf : Floatable fallback) :
    Floatable (normalizeHypothesesSafe raw fallback) := by
  unfold normalizeHypothesesSafe
  split
  · split
    · rename_i items hs h
      unfold normalizeHypotheses at h
      split at h
      · cases h
      · exact floatable_of_floats (normalizeFrom_confidence h)
    · exact hf
  · exact hf

theorem floatable_triageFallback (metadata : PyDict) : Floatable (triageFallback metadata) :=
  floatable_of_floats fun d hd => by
    rw [List.mem_singleton.mp hd]
    exact ⟨_, rfl⟩

/-! ## Evidence -/

/-- The evidence of a hypothesis can be extended. -/
def EvidenceOk (d : PyDict) : Prop := (PyDict.getD d "evidence" (.arr [])).iterable = true

theorem appendAllEvidence_ok (results : List String) {hs : List PyDict}
    (h : ∀ d ∈ hs, EvidenceOk d) : ∃ hs', appendAllEvidence results hs = .ok hs' := by
  induction hs with
  | nil => exact ⟨_, rfl⟩
  | cons d ds ih =>
    obtain ⟨xs, hx⟩ := Json.toList_of_iterable (h d List.mem_cons_self)
    obtain ⟨ds', hds⟩ := ih fun d' hm => h d' (List.mem_cons_of_mem _ hm)
    exact ⟨PyDict.set d "evidence" (.arr (xs ++ results.map .str)) :: ds',
      by simp only [appendAllEvidence, appendEvidence, hx, hds]⟩

theorem appendEvidence_confidence {results : List String} {d d' : PyDict}
    (h : appendEvidence results d = .ok d') :
    PyDict.get? d' "confidence" = PyDict.get? d "confidence" := by
  unfold appendEvidence at h
  split at h
  · cases h
    exact PyDict.get?_set_ne d _ (by decide)
  · cases h

theorem confidenceValue_congr {d d' : PyDict}
    (h : PyDict.get? d' "confidence" = PyDict.get? d "confidence") :
    confidenceValue d' = confidenceValue d := by
  simp only [confidenceValue, PyDict.getD, h]

/-- An investigation does not change which confidence is on top. -/
theorem maxHypothesis_appendAllEvidence {results : List String} {hs hs' : List PyDict}
    (h : appendAllEvidence results hs = .ok hs') {best best' : PyDict}
    (hb : PyDict.get? best' "confidence" = PyDict.get? best "confidence") :
    PyDict.get? (maxHypothesis best' hs') "confidence" =
      PyDict.get? (maxHypothesis best hs) "confidence" := by
  induction hs generalizing hs' best best' with
  | nil => cases h; exact hb
  | cons d ds ih =>
    unfold appendAllEvidence at h
    split at h
    · cases h
    · rename_i d' hd
      split at h
      · cases h
      · rename_i ds' hds
        cases h
        have hc := appendEvidence_confidence hd
        unfold maxHypothesis
        rw [confidenceValue_congr hb, confidenceValue_congr hc]
        split
        · exact ih hds hc
        · exact ih hds hb

theorem topConfidence_appendAllEvidence {results : List String} {hs hs' : List PyDict}
    (h : appendAllEvidence results hs = .ok hs') : topConfidence hs' = topConfidence hs := by
  cases hs with
  | nil => cases h; rfl
  | cons d ds =>
    unfold appendAllEvidence at h
    split at h
    · cases h
    · rename_i d' hd
      split at h
      · cases h
      · rename_i ds' hds
        cases h
        simp only [topConfidence, topHypothesis, readConfidence,
          maxHypothesis_appendAllEvidence hds (appendEvidence_confidence hd)]

/-- The confidence can still be read after an investigation. -/
theorem floatable_appendAllEvidence {results : List String} {hs hs' : List PyDict}
    (h : appendAllEvidence results hs = .ok hs') (hf : Floatable hs) : Floatable hs' := by
  unfold Floatable
  rw [topConfidence_appendAllEvidence h]
  exact hf

theorem hypothesizeAnswer_floatable {ctx : GraphContext} {env : NodeEnv} {s : AgentState}
    {r : Refinement} (h : hypothesizeAnswer ctx env s = .ok r) : Floatable r.hypotheses := by
  unfold hypothesizeAnswer at h
  split at h
  · cases h
  · split at h
    · cases h
    · split at h
      · cases h
      · rename_i confidence hc
        simp only at h
        split at h
        · cases h
        · cases h
          exact ⟨confidence, hc⟩

/-! ## Metadata -/

/-- The category of an alert can be looked up. -/
theorem proposeCategory_modelDump (m : IncidentMetadata) :
    ∃ category, proposeCategory m.modelDump = .ok category := by
  have hstr : ∀ (d : List (String × String)) (k : String),
      (PyDict.get? (d.map fun p => (p.1, Json.str p.2)) k = none) ∨
        ∃ v, PyDict.get? (d.map fun p => (p.1, Json.str p.2)) k = some (.str v) := by
    intro d k
    induction d with
    | nil => exact .inl rfl
    | cons p d ih =>
      by_cases hk : p.1 = k
      · exact .inr ⟨p.2, by simp [PyDict.get?, hk]⟩
      · simpa [PyDict.get?, hk] using ih
  have hlabels : PyDict.get? m.modelDump "labels" = some (stringDict m.labels) := rfl
  unfold proposeCategory
  rw [hlabels]
  simp only [stringDict, dictGetD, PyDict.getD]
  rcases hstr m.labels "category" with h | ⟨v, h⟩ <;> rw [h] <;> exact ⟨_, rfl⟩

end Core
end AutoSRE
