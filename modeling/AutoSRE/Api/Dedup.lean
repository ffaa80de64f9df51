import AutoSRE.Lib.Sys
import Mathlib.Algebra.Order.Ring.Rat
import Mathlib.Tactic.Linarith

/-!
# Deduplication of alerts (`api/routes.py`)

- **The index** (`lookup`, `reserve`). A reservation of a fingerprint lives for a time `ttl`.
- **Deliveries** (`stepDedup`). `trigger_incident` looks the fingerprint up, awaits the runner, and
  reserves the fingerprint for the incident afterwards. The steps of several deliveries interleave;
  the runner can suspend or fail.
- **Deduplication** (`Deduplicated`). It holds when a delivery that finds no reservation does so
  while no other one of its fingerprint is between its lookup and its reservation (`MissesAlone`,
  `deduplicated`). Otherwise two incidents are scheduled (`scheduled_twice`).
-/

namespace AutoSRE
namespace Api

open Lib

/-! ## The index -/

/-- `ttl_seconds`, which `_FingerprintIndex` checks. -/
structure Ttl where
  seconds : Rat
  pos : 0 < seconds

/-- `_FINGERPRINT_TTL_SECONDS`. -/
def fingerprintTtl : Ttl := ⟨1800, by decide⟩

/-- `_entries`: the incident and the time of each reservation. The difference of two times is exact
here; the rounded one of the code is over the bound only if the exact one is. -/
abbrev Entries := String → Option (String × Rat)

/-- `lookup`: the reserved incident, and the entries without an expired reservation. -/
def lookup (ttl : Ttl) (now : Rat) (fingerprint : String) (entries : Entries) :
    Option String × Entries :=
  if fingerprint = "" then (none, entries)
  else
    match entries fingerprint with
    | none => (none, entries)
    | some (incidentId, seenAt) =>
      if ttl.seconds < now - seenAt then (none, Function.update entries fingerprint none)
      else (some incidentId, entries)

/-- `reserve`. -/
def reserve (now : Rat) (fingerprint incidentId : String) (entries : Entries) : Entries :=
  if fingerprint = "" then entries
  else Function.update entries fingerprint (some (incidentId, now))

/-! ## Deliveries -/

/-- The `status` of an answer. -/
inductive DeliveryStatus where
  | accepted
  | alreadyInvestigating
  deriving DecidableEq

/-- What the deliveries log. -/
inductive DeliveryEvent where
  /-- The runner has scheduled an incident. -/
  | scheduled (fingerprint incidentId : String) (time : Rat)
  | answered (fingerprint incidentId : String) (status : DeliveryStatus) (time : Rat)
  /-- The runner failed, and so does the delivery. -/
  | failed (fingerprint : String)
  deriving DecidableEq

/-- A delivery that found no reservation; the incident is there when the runner has scheduled it. -/
structure Delivery where
  fingerprint : String
  incidentId : Option String

/-- The deliveries that are not answered yet, and the index. -/
structure Dedup where
  now : Rat
  entries : Entries
  pending : List Delivery

/-- A step of a delivery, or of the clock. -/
inductive DedupStep where
  | tick (seconds : Rat)
  /-- An alert is delivered and looked up. -/
  | deliver (fingerprint : String)
  /-- The runner schedules the incident of a delivery. -/
  | schedule (i : Nat) (incidentId : String)
  /-- `schedule_incident` raises. -/
  | fail (i : Nat)
  /-- `schedule_incident` has returned, and the delivery reserves its fingerprint. -/
  | finish (i : Nat)

/-- The step of a label. -/
def stepDedup (ttl : Ttl) (s : Dedup) : DedupStep → Option (Dedup × List DeliveryEvent)
  | .tick seconds => if 0 ≤ seconds then some ({ s with now := s.now + seconds }, []) else none
  | .deliver fingerprint =>
    let (existing, entries) := lookup ttl s.now fingerprint s.entries
    match existing with
    | some incidentId =>
      some ({ s with entries }, [.answered fingerprint incidentId .alreadyInvestigating s.now])
    | none => some ({ s with entries, pending := s.pending ++ [⟨fingerprint, none⟩] }, [])
  | .schedule i incidentId =>
    match s.pending[i]? with
    | some ⟨fingerprint, none⟩ =>
      some ({ s with pending := s.pending.set i ⟨fingerprint, some incidentId⟩ },
        [.scheduled fingerprint incidentId s.now])
    | _ => none
  | .fail i =>
    match s.pending[i]? with
    | some ⟨fingerprint, none⟩ =>
      some ({ s with pending := s.pending.eraseIdx i }, [.failed fingerprint])
    | _ => none
  | .finish i =>
    match s.pending[i]? with
    | some ⟨fingerprint, some incidentId⟩ =>
      some ({ s with
          entries := reserve s.now fingerprint incidentId s.entries
          pending := s.pending.eraseIdx i },
        [.answered fingerprint incidentId .accepted s.now])
    | _ => none

/-- An empty index, without deliveries. -/
def NewDedup (s : Dedup) : Prop := (∀ fingerprint, s.entries fingerprint = none) ∧ s.pending = []

/-- The deliveries of a process. -/
def dedup (ttl : Ttl) : Sys Dedup DedupStep DeliveryEvent where
  init := NewDedup
  step := stepDedup ttl

/-- Within `ttl` of an incident no other one of its fingerprint is scheduled, and every answer is
that incident; a reservation is that of a delivery that was answered with its incident. -/
structure Deduplicated (ttl : Ttl) (es : List DeliveryEvent) (s : Dedup) : Prop where
  one : ∀ pre fingerprint incidentId time post,
    es = pre ++ .scheduled fingerprint incidentId time :: post → fingerprint ≠ "" →
    ∀ other time₀, .scheduled fingerprint other time₀ ∈ pre → time₀ + ttl.seconds < time
  same : ∀ pre fingerprint incidentId status time post,
    es = pre ++ .answered fingerprint incidentId status time :: post → fingerprint ≠ "" →
    ∀ other time₀, .scheduled fingerprint other time₀ ∈ pre → time ≤ time₀ + ttl.seconds →
      other = incidentId
  reserved : ∀ fingerprint incidentId time, s.entries fingerprint = some (incidentId, time) →
    .answered fingerprint incidentId .accepted time ∈ es

/-- A delivery that finds no reservation does so while no other one of its fingerprint is between
its lookup and its reservation. -/
def MissesAlone (ttl : Ttl) (s : Dedup) (a : DedupStep) : Prop :=
  ∀ fingerprint, a = .deliver fingerprint → fingerprint ≠ "" →
    (lookup ttl s.now fingerprint s.entries).1 = none →
    ∀ d ∈ s.pending, d.fingerprint ≠ fingerprint

/-! ## The steps -/

section steps

variable {ttl : Ttl} {s s' : Dedup} {a : DedupStep} {es fs : List DeliveryEvent}
  {fingerprint incidentId : String} {time time' : Rat} {entries : Entries}

theorem lookup_some (h : (lookup ttl time fingerprint entries).1 = some incidentId) :
    fingerprint ≠ "" ∧ (lookup ttl time fingerprint entries).2 = entries ∧
      ∃ seenAt, entries fingerprint = some (incidentId, seenAt) ∧ time - seenAt ≤ ttl.seconds := by
  unfold lookup at h ⊢
  split at h
  · cases h
  · rename_i hne
    split at h
    · cases h
    · rename_i id seenAt he
      split at h
      · cases h
      · rename_i hle
        obtain rfl := Option.some.inj h
        exact ⟨hne, by simp [hne, hle], seenAt, he, not_lt.mp hle⟩

/-- A lookup that finds nothing leaves no reservation of the fingerprint. -/
theorem lookup_none (hne : fingerprint ≠ "")
    (h : (lookup ttl time fingerprint entries).1 = none) :
    (lookup ttl time fingerprint entries).2 = Function.update entries fingerprint none ∧
      ∀ incidentId seenAt, entries fingerprint = some (incidentId, seenAt) →
        seenAt + ttl.seconds < time := by
  unfold lookup at h ⊢
  rw [if_neg hne] at h ⊢
  split at h
  · rename_i he
    exact ⟨(Function.update_eq_self_iff.mpr he.symm).symm, fun id seenAt hs => by simp [he] at hs⟩
  · rename_i id seenAt he
    split at h
    · rename_i hlt
      refine ⟨by simp [hlt], fun id' seenAt' hs => ?_⟩
      obtain ⟨-, rfl⟩ : id = id' ∧ seenAt = seenAt' := by simpa [he] using hs
      linarith
    · cases h

/-- A lookup reserves nothing. -/
theorem lookup_entries {other : String} {entry : String × Rat}
    (h : (lookup ttl time fingerprint entries).2 other = some entry) :
    entries other = some entry := by
  unfold lookup at h
  split at h
  · exact h
  · split at h
    · exact h
    · split at h
      · by_cases ho : other = fingerprint
        · subst ho
          simp at h
        · exact (Function.update_of_ne ho none entries).symm.trans h
      · exact h

variable (ttl) in
/-- What a step does. -/
inductive DedupWay (s : Dedup) (a : DedupStep) : Dedup → List DeliveryEvent → Prop
  | ticked (seconds : Rat) : 0 ≤ seconds → DedupWay s a { s with now := s.now + seconds } []
  | hit (fingerprint incidentId : String) (seenAt : Rat) : fingerprint ≠ "" →
      s.entries fingerprint = some (incidentId, seenAt) → s.now - seenAt ≤ ttl.seconds →
      DedupWay s a s [.answered fingerprint incidentId .alreadyInvestigating s.now]
  | missed (fingerprint : String) (entries : Entries) : a = .deliver fingerprint →
      lookup ttl s.now fingerprint s.entries = (none, entries) →
      DedupWay s a { s with entries, pending := s.pending ++ [⟨fingerprint, none⟩] } []
  | scheduled (ys zs : List Delivery) (fingerprint incidentId : String) :
      s.pending = ys ++ ⟨fingerprint, none⟩ :: zs →
      DedupWay s a { s with pending := ys ++ ⟨fingerprint, some incidentId⟩ :: zs }
        [.scheduled fingerprint incidentId s.now]
  | failed (ys zs : List Delivery) (fingerprint : String) :
      s.pending = ys ++ ⟨fingerprint, none⟩ :: zs →
      DedupWay s a { s with pending := ys ++ zs } [.failed fingerprint]
  | finished (ys zs : List Delivery) (fingerprint incidentId : String) :
      s.pending = ys ++ ⟨fingerprint, some incidentId⟩ :: zs →
      DedupWay s a { s with
          entries := reserve s.now fingerprint incidentId s.entries
          pending := ys ++ zs }
        [.answered fingerprint incidentId .accepted s.now]

theorem dedup_step (h : (dedup ttl).step s a = some (s', fs)) : DedupWay ttl s a s' fs := by
  simp only [dedup] at h
  cases a with
  | tick seconds =>
    simp only [stepDedup] at h
    split at h
    · rename_i hle
      obtain ⟨rfl, rfl⟩ := Prod.mk.inj (Option.some.inj h)
      exact .ticked seconds hle
    · cases h
  | deliver fingerprint =>
    simp only [stepDedup] at h
    split at h
    · rename_i incidentId hl
      obtain ⟨hne, hentries, seenAt, he, hle⟩ := lookup_some hl
      obtain ⟨rfl, rfl⟩ := Prod.mk.inj (Option.some.inj h)
      rw [hentries]
      exact .hit fingerprint incidentId seenAt hne he hle
    · rename_i hl
      obtain ⟨rfl, rfl⟩ := Prod.mk.inj (Option.some.inj h)
      exact .missed fingerprint _ rfl (Prod.ext hl rfl)
  | schedule i incidentId =>
    simp only [stepDedup] at h
    split at h
    · rename_i fingerprint hp
      obtain ⟨ys, zs, hs, -, hset⟩ := Sys.around_getElem? hp
      obtain ⟨rfl, rfl⟩ := Prod.mk.inj (Option.some.inj h)
      rw [hset]
      exact .scheduled ys zs fingerprint incidentId hs
    · cases h
  | fail i =>
    simp only [stepDedup] at h
    split at h
    · rename_i fingerprint hp
      obtain ⟨ys, zs, hs, herase, -⟩ := Sys.around_getElem? hp
      obtain ⟨rfl, rfl⟩ := Prod.mk.inj (Option.some.inj h)
      rw [herase]
      exact .failed ys zs fingerprint hs
    · cases h
  | finish i =>
    simp only [stepDedup] at h
    split at h
    · rename_i fingerprint incidentId hp
      obtain ⟨ys, zs, hs, herase, -⟩ := Sys.around_getElem? hp
      obtain ⟨rfl, rfl⟩ := Prod.mk.inj (Option.some.inj h)
      rw [herase]
      exact .finished ys zs fingerprint incidentId hs
    · cases h

end steps

/-! ## What is known of a fingerprint -/

section known

variable {ttl : Ttl} {s s' : Dedup} {a : DedupStep} {es fs : List DeliveryEvent}
  {fingerprint incidentId : String} {time time' : Rat}

/-- The incidents of a fingerprint are over, but for the given one. -/
def Known (ttl : Ttl) (es : List DeliveryEvent) (fingerprint : String) (current : Option String)
    (time : Rat) : Prop :=
  ∀ other time₀, .scheduled fingerprint other time₀ ∈ es →
    some other = current ∧ time₀ ≤ time ∨ time₀ + ttl.seconds < time

theorem Known.later {current : Option String} (h : Known ttl es fingerprint current time)
    (hle : time ≤ time') : Known ttl es fingerprint current time' := by
  intro other time₀ hm
  rcases h other time₀ hm with ⟨he, ht⟩ | ht
  · exact .inl ⟨he, ht.trans hle⟩
  · exact .inr (ht.trans_le hle)

/-- The current incident is over too. -/
theorem Known.over {current : Option String} (h : Known ttl es fingerprint current time)
    (hlt : time + ttl.seconds < time') : Known ttl es fingerprint none time' := by
  intro other time₀ hm
  have hpos := ttl.pos
  rcases h other time₀ hm with ⟨-, ht⟩ | ht
  · exact .inr (by linarith)
  · exact .inr (by linarith)

theorem Known.append {current : Option String} (h : Known ttl es fingerprint current time)
    (hf : ∀ other time₀, .scheduled fingerprint other time₀ ∉ fs) :
    Known ttl (es ++ fs) fingerprint current time := fun other time₀ hm =>
  h other time₀ ((List.mem_append.mp hm).resolve_right (hf other time₀))

/-- An incident that is scheduled when the others are over is the current one. -/
theorem Known.schedule (h : Known ttl es fingerprint none time) (incidentId : String) :
    Known ttl (es ++ [.scheduled fingerprint incidentId time]) fingerprint (some incidentId)
      time := by
  intro other time₀ hm
  rcases List.mem_append.mp hm with hm | hm
  · rcases h other time₀ hm with ⟨he, -⟩ | ht
    · cases he
    · exact .inr ht
  · obtain ⟨rfl, rfl⟩ : other = incidentId ∧ time₀ = time := by simpa using hm
    exact .inl ⟨rfl, le_refl _⟩

/-- Two fingerprints differ, unless they are empty. -/
def Apart (a b : String) : Prop := a = b → a = ""

theorem Apart.symm {a b : String} (h : Apart a b) : Apart b a := fun heq => heq ▸ h heq.symm

/-- A delivery is pending alone, and what it knows is right; without one, the reservation is. -/
structure Guarded (ttl : Ttl) (es : List DeliveryEvent) (now : Rat) (entries : Entries)
    (pending : List Delivery) : Prop where
  alone : (pending.map Delivery.fingerprint).Pairwise Apart
  known : ∀ d ∈ pending, d.fingerprint ≠ "" → entries d.fingerprint = none ∧
    Known ttl es d.fingerprint d.incidentId now
  free : ∀ fingerprint, fingerprint ≠ "" → (∀ d ∈ pending, d.fingerprint ≠ fingerprint) →
    entries fingerprint = none → Known ttl es fingerprint none now
  reserved : ∀ fingerprint incidentId seenAt, entries fingerprint = some (incidentId, seenAt) →
    fingerprint ≠ "" ∧ seenAt ≤ now ∧ Known ttl es fingerprint (some incidentId) seenAt

variable {now : Rat} {entries : Entries} {pending ys zs : List Delivery}

/-- Events that schedule nothing change nothing that is known. -/
theorem Guarded.log (hg : Guarded ttl es now entries pending)
    (hf : ∀ fingerprint other time₀, .scheduled fingerprint other time₀ ∉ fs) :
    Guarded ttl (es ++ fs) now entries pending where
  alone := hg.alone
  known d hd hne := (hg.known d hd hne).imp_right fun hk => hk.append (hf _)
  free fp hne hfree hnone := (hg.free fp hne hfree hnone).append (hf _)
  reserved fp id seenAt he := by
    obtain ⟨hne, hle, hk⟩ := hg.reserved fp id seenAt he
    exact ⟨hne, hle, hk.append (hf _)⟩

theorem Guarded.tick (hg : Guarded ttl es now entries pending) {seconds : Rat}
    (hle : 0 ≤ seconds) : Guarded ttl es (now + seconds) entries pending := by
  have hnow : now ≤ now + seconds := by linarith
  refine ⟨hg.alone, fun d hd hne => ?_, fun fp hne hfree hnone => ?_, fun fp id seenAt he => ?_⟩
  · exact (hg.known d hd hne).imp_right fun hk => hk.later hnow
  · exact (hg.free fp hne hfree hnone).later hnow
  · obtain ⟨hne, hle, hk⟩ := hg.reserved fp id seenAt he
    exact ⟨hne, hle.trans hnow, hk⟩

/-- A delivery that misses alone is pending alone, and the incidents of its fingerprint are over. -/
theorem Guarded.miss (hg : Guarded ttl es now entries pending) {entries' : Entries}
    (halone : fingerprint ≠ "" → ∀ d ∈ pending, d.fingerprint ≠ fingerprint)
    (hl : lookup ttl now fingerprint entries = (none, entries')) :
    Guarded ttl es now entries' (pending ++ [⟨fingerprint, none⟩]) := by
  have hpair : ((pending ++ [(⟨fingerprint, none⟩ : Delivery)]).map Delivery.fingerprint).Pairwise
      Apart := by
    rw [List.map_append]
    refine List.pairwise_append.mpr ⟨hg.alone, List.pairwise_singleton .., fun a ha b hb heq => ?_⟩
    obtain ⟨d, hd, rfl⟩ := List.mem_map.mp ha
    obtain rfl : b = fingerprint := by simpa using hb
    refine Classical.byContradiction fun hne => ?_
    exact halone (heq ▸ hne) d hd heq
  by_cases hempty : fingerprint = ""
  · subst hempty
    obtain rfl : entries = entries' := by simpa [lookup] using hl
    refine ⟨hpair, fun d hd hne => ?_, fun fp hne hfree hnone => ?_, hg.reserved⟩
    · rcases List.mem_append.mp hd with hd | hd
      · exact hg.known d hd hne
      · obtain rfl := List.mem_singleton.mp hd
        exact absurd rfl hne
    · exact hg.free fp hne (fun d hd => hfree d (List.mem_append_left _ hd)) hnone
  · obtain ⟨hentries, hexpired⟩ := lookup_none hempty (by rw [hl])
    obtain rfl : entries' = Function.update entries fingerprint none := by
      rw [← hentries, hl]
    have hover : Known ttl es fingerprint none now := by
      cases he : entries fingerprint with
      | none => exact hg.free fingerprint hempty (halone hempty) he
      | some entry =>
        obtain ⟨id, seenAt⟩ := entry
        exact (hg.reserved fingerprint id seenAt he).2.2.over (hexpired id seenAt he)
    refine ⟨hpair, fun d hd hne => ?_, fun fp hne hfree hnone => ?_, fun fp id seenAt he => ?_⟩
    · rcases List.mem_append.mp hd with hd | hd
      · rw [Function.update_of_ne (halone hempty d hd)]
        exact hg.known d hd hne
      · obtain rfl := List.mem_singleton.mp hd
        exact ⟨Function.update_self .., hover⟩
    · have hother : fp ≠ fingerprint := fun heq =>
        hfree ⟨fingerprint, none⟩ (by simp) heq.symm
      rw [Function.update_of_ne hother] at hnone
      exact hg.free fp hne (fun d hd => hfree d (List.mem_append_left _ hd)) hnone
    · by_cases hfp : fp = fingerprint
      · subst hfp
        simp at he
      · rw [Function.update_of_ne hfp] at he
        exact hg.reserved fp id seenAt he

/-- The others are of other fingerprints. -/
theorem Guarded.others {d e : Delivery} (hg : Guarded ttl es now entries (ys ++ d :: zs))
    (hd : d.fingerprint ≠ "") (he : e ∈ ys ++ zs) : e.fingerprint ≠ d.fingerprint := by
  have hpair := hg.alone
  rw [List.map_append, List.map_cons, List.pairwise_middle (R := Apart) Apart.symm,
    ← List.map_append] at hpair
  have hapart := (List.pairwise_cons.mp hpair).1 _ (List.mem_map_of_mem he)
  exact fun heq => hd (hapart heq.symm)

theorem mem_around {α : Type} {xs xs' : List α} {x y : α} :
    y ∈ xs ++ x :: xs' ↔ y = x ∨ y ∈ xs ++ xs' := by
  simp [or_left_comm]

/-- The runner schedules the incident of a pending delivery, which is the current one then. -/
theorem Guarded.schedule (hg : Guarded ttl es now entries (ys ++ ⟨fingerprint, none⟩ :: zs))
    (incidentId : String) :
    Guarded ttl (es ++ [.scheduled fingerprint incidentId now]) now entries
      (ys ++ ⟨fingerprint, some incidentId⟩ :: zs) := by
  have hquiet : ∀ fp, fp ≠ fingerprint → ∀ other time₀,
      .scheduled fp other time₀ ∉ [DeliveryEvent.scheduled fingerprint incidentId now] := by
    intro fp hfp other time₀ hm
    simp [hfp] at hm
  refine ⟨by simpa using hg.alone, fun d hd hne => ?_, fun fp hne hfree hnone => ?_,
    fun fp id seenAt he => ?_⟩
  · rcases mem_around.mp hd with rfl | hd
    · obtain ⟨hnone, hk⟩ := hg.known ⟨fingerprint, none⟩ (by simp) hne
      exact ⟨hnone, hk.schedule incidentId⟩
    · have hother : d.fingerprint ≠ fingerprint := fun heq =>
        hg.others (d := ⟨fingerprint, none⟩) (heq ▸ hne) hd heq
      obtain ⟨hnone, hk⟩ := hg.known d (mem_around.mpr (.inr hd)) hne
      exact ⟨hnone, hk.append (hquiet _ hother)⟩
  · have hother : fp ≠ fingerprint := fun heq =>
      hfree ⟨fingerprint, some incidentId⟩ (by simp) heq.symm
    refine (hg.free fp hne (fun d hd => ?_) hnone).append (hquiet fp hother)
    rcases mem_around.mp hd with rfl | hd
    · exact hother.symm
    · exact hfree d (mem_around.mpr (.inr hd))
  · obtain ⟨hne, hle, hk⟩ := hg.reserved fp id seenAt he
    have hother : fp ≠ fingerprint := by
      rintro rfl
      have hnone := (hg.known ⟨fp, none⟩ (by simp) hne).1
      rw [hnone] at he
      cases he
    exact ⟨hne, hle, hk.append (hquiet fp hother)⟩

/-- When a delivery fails, its fingerprint is free again. -/
theorem Guarded.fail (hg : Guarded ttl es now entries (ys ++ ⟨fingerprint, none⟩ :: zs)) :
    Guarded ttl es now entries (ys ++ zs) := by
  refine ⟨?_, fun d hd => hg.known d (mem_around.mpr (.inr hd)), fun fp hne hfree hnone => ?_,
    hg.reserved⟩
  · refine hg.alone.sublist (List.Sublist.map _ ?_)
    exact List.Sublist.append_left (List.sublist_cons_self _ _) ys
  · by_cases hfp : fp = fingerprint
    · subst hfp
      exact (hg.known ⟨fp, none⟩ (by simp) hne).2
    · refine hg.free fp hne (fun d hd => ?_) hnone
      rcases mem_around.mp hd with rfl | hd
      · exact fun heq => hfp heq.symm
      · exact hfree d hd

/-- A finished delivery reserves its fingerprint for the current incident. -/
theorem Guarded.finish
    (hg : Guarded ttl es now entries (ys ++ ⟨fingerprint, some incidentId⟩ :: zs)) :
    Guarded ttl es now (reserve now fingerprint incidentId entries) (ys ++ zs) := by
  have halone : ((ys ++ zs).map Delivery.fingerprint).Pairwise Apart := by
    refine hg.alone.sublist (List.Sublist.map _ ?_)
    exact List.Sublist.append_left (List.sublist_cons_self _ _) ys
  have hfree : ∀ fp, fp ≠ fingerprint → (∀ d ∈ ys ++ zs, d.fingerprint ≠ fp) →
      ∀ d ∈ ys ++ ⟨fingerprint, some incidentId⟩ :: zs, d.fingerprint ≠ fp := by
    intro fp hfp hfree d hd
    rcases mem_around.mp hd with rfl | hd
    · exact hfp.symm
    · exact hfree d hd
  unfold reserve
  by_cases hempty : fingerprint = ""
  · rw [if_pos hempty]
    refine ⟨halone, fun d hd => hg.known d (mem_around.mpr (.inr hd)), fun fp hne hf hnone => ?_,
      hg.reserved⟩
    exact hg.free fp hne (hfree fp (hempty ▸ hne) hf) hnone
  · rw [if_neg hempty]
    refine ⟨halone, fun d hd hne => ?_, fun fp hne hf hnone => ?_, fun fp id seenAt he => ?_⟩
    · rw [Function.update_of_ne (hg.others (d := ⟨fingerprint, some incidentId⟩) hempty hd)]
      exact hg.known d (mem_around.mpr (.inr hd)) hne
    · have hfp : fp ≠ fingerprint := by
        rintro rfl
        simp at hnone
      rw [Function.update_of_ne hfp] at hnone
      exact hg.free fp hne (hfree fp hfp hf) hnone
    · by_cases hfp : fp = fingerprint
      · subst hfp
        obtain ⟨rfl, rfl⟩ : incidentId = id ∧ now = seenAt := by simpa using he
        exact ⟨hempty, le_refl _, (hg.known ⟨fp, some incidentId⟩ (by simp) hempty).2⟩
      · rw [Function.update_of_ne hfp] at he
        exact hg.reserved fp id seenAt he

end known

/-! ## Runs -/

section runs

variable {ttl : Ttl} {s s' : Dedup} {a : DedupStep} {es fs : List DeliveryEvent} {n : Nat}

/-- A step under the condition keeps the deliveries guarded. -/
theorem guarded_step (hg : Guarded ttl es s.now s.entries s.pending) (hc : MissesAlone ttl s a)
    (h : DedupWay ttl s a s' fs) : Guarded ttl (es ++ fs) s'.now s'.entries s'.pending := by
  cases h with
  | ticked seconds hle => exact (hg.tick hle).log fun _ _ _ hm => nomatch hm
  | hit fingerprint incidentId seenAt _ _ _ => exact hg.log fun _ _ _ hm => by simp at hm
  | missed fingerprint entries ha hl =>
    have halone := fun hne => hc fingerprint ha hne (by rw [hl])
    exact (hg.miss halone hl).log fun _ _ _ hm => nomatch hm
  | scheduled ys zs fingerprint incidentId hs =>
    rw [hs] at hg
    exact hg.schedule incidentId
  | failed ys zs fingerprint hs =>
    rw [hs] at hg
    exact hg.fail.log fun _ _ _ hm => by simp at hm
  | finished ys zs fingerprint incidentId hs =>
    rw [hs] at hg
    exact hg.finish.log fun _ _ _ hm => by simp at hm

theorem guarded_run (hr : (dedup ttl).Run (MissesAlone ttl) n es s) :
    Guarded ttl es s.now s.entries s.pending := by
  refine hr.inv (I := fun es s => Guarded ttl es s.now s.entries s.pending) (fun s hi => ?_)
    fun n es s a s' fs _ hi hc hs => guarded_step hi hc (dedup_step hs)
  obtain ⟨hentries, hpending⟩ := hi
  rw [hpending]
  refine ⟨by simp, by simp, fun fp _ _ _ other time₀ hm => ?_, fun fp id seenAt he => ?_⟩
  · cases hm
  · rw [hentries] at he
    cases he

/-- A reservation is that of a delivery that was answered with its incident. -/
theorem reserved_answered {C : Dedup → DedupStep → Prop} (hr : (dedup ttl).Run C n es s) :
    ∀ fingerprint incidentId time, s.entries fingerprint = some (incidentId, time) →
      .answered fingerprint incidentId .accepted time ∈ es := by
  refine hr.inv (I := fun es s => ∀ fingerprint incidentId time,
    s.entries fingerprint = some (incidentId, time) →
      .answered fingerprint incidentId .accepted time ∈ es) (fun s hi fp id time he => ?_)
    fun n es s a s' fs _ hi _ hs fp id time he => ?_
  · rw [hi.1] at he
    cases he
  · cases dedup_step hs with
    | missed fingerprint entries _ hl =>
      have hentries : (lookup ttl s.now fingerprint s.entries).2 fp = some (id, time) := by
        rw [hl]
        exact he
      exact List.mem_append_left _ (hi fp id time (lookup_entries hentries))
    | finished ys zs fingerprint incidentId _ =>
      simp only [reserve] at he
      split at he
      · exact List.mem_append_left _ (hi fp id time he)
      · by_cases hfp : fp = fingerprint
        · subst hfp
          obtain ⟨rfl, rfl⟩ : incidentId = id ∧ s.now = time := by simpa using he
          simp
        · rw [Function.update_of_ne hfp] at he
          exact List.mem_append_left _ (hi fp id time he)
    | _ => exact List.mem_append_left _ (hi fp id time he)

/-- A step logs one event at most. -/
theorem dedup_log (h : DedupWay ttl s a s' fs) {fs₁ fs₂ : List DeliveryEvent} {e : DeliveryEvent}
    (hf : fs = fs₁ ++ e :: fs₂) : fs₁ = [] ∧ fs = [e] := by
  have hlen : fs.length ≤ 1 := by cases h <;> simp
  rw [hf, List.length_append, List.length_cons] at hlen
  have h₁ : fs₁ = [] := List.eq_nil_of_length_eq_zero (by omega)
  have h₂ : fs₂ = [] := List.eq_nil_of_length_eq_zero (by omega)
  exact ⟨h₁, by rw [hf, h₁, h₂, List.nil_append]⟩

/-- When a delivery that finds no reservation does so while no other one of its fingerprint is
pending, a fingerprint has one incident in its time to live. -/
theorem deduplicated (hr : (dedup ttl).Run (MissesAlone ttl) n es s) : Deduplicated ttl es s := by
  refine ⟨fun pre fp id time post he hne other time₀ hm => ?_,
    fun pre fp id status time post he hne other time₀ hm hle => ?_, reserved_answered hr⟩
  · obtain ⟨n₁, es₁, s₁, a, s₂, fs, fs₁, fs₂, hr₁, -, hs, hfs, rfl⟩ := hr.split he
    have hg := guarded_run hr₁
    obtain ⟨rfl, hlog⟩ := dedup_log (dedup_step hs) hfs
    rw [List.append_nil] at hm
    cases dedup_step hs with
    | scheduled ys zs fingerprint incidentId hpending =>
      obtain ⟨rfl, rfl, rfl⟩ : fingerprint = fp ∧ incidentId = id ∧ s₁.now = time := by
        simpa using hlog
      -- The incidents before are over for the delivery that schedules this one.
      have hk := (hg.known ⟨fingerprint, none⟩ (by simp [hpending]) hne).2
      exact (hk other time₀ hm).resolve_left fun h => nomatch h.1
    | _ => simp at hlog
  · obtain ⟨n₁, es₁, s₁, a, s₂, fs, fs₁, fs₂, hr₁, -, hs, hfs, rfl⟩ := hr.split he
    have hg := guarded_run hr₁
    obtain ⟨rfl, hlog⟩ := dedup_log (dedup_step hs) hfs
    rw [List.append_nil] at hm
    have hcurrent : Known ttl es₁ fp (some id) time := by
      cases dedup_step hs with
      | hit fingerprint incidentId seenAt _ hentry _ =>
        obtain ⟨rfl, rfl, -, rfl⟩ : fingerprint = fp ∧ incidentId = id ∧
            DeliveryStatus.alreadyInvestigating = status ∧ s₁.now = time := by
          simpa using hlog
        obtain ⟨-, hseen, hk⟩ := hg.reserved fingerprint incidentId seenAt hentry
        exact hk.later hseen
      | finished ys zs fingerprint incidentId hpending =>
        obtain ⟨rfl, rfl, -, rfl⟩ : fingerprint = fp ∧ incidentId = id ∧
            DeliveryStatus.accepted = status ∧ s₁.now = time := by
          simpa using hlog
        exact (hg.known ⟨fingerprint, some incidentId⟩ (by simp [hpending]) hne).2
      | _ => simp at hlog
    rcases hcurrent other time₀ hm with ⟨he, -⟩ | hlt
    · exact Option.some.inj he
    · linarith

end runs

/-! ### The sample deliveries -/

/-- An empty index at time zero. -/
def newDedup : Dedup := { now := 0, entries := fun _ => none, pending := [] }

theorem newDedup_new : NewDedup newDedup := ⟨fun _ => rfl, rfl⟩

/-- The delivery that misses is not concurrent with another one of its fingerprint. -/
def checkMisses (s : Dedup) : DedupStep → Bool
  | .deliver fingerprint => s.pending.all fun d => d.fingerprint != fingerprint
  | _ => true

theorem missesAlone_of_check (s : Dedup) (a : DedupStep) (h : checkMisses s a = true) :
    MissesAlone fingerprintTtl s a := by
  rintro fingerprint rfl - - d hd
  simpa using List.all_eq_true.mp h d hd

/-- A delivery that repeats one after a minute is answered with its incident. -/
theorem deduplicated_repeated :
    ∃ n es s, (dedup fingerprintTtl).Run (MissesAlone fingerprintTtl) n es s ∧
      s.entries "latency" = some ("inc-1", 0) ∧ s.now = 60 ∧ es.length = 3 ∧
      Deduplicated fingerprintTtl es s := by
  have hexec : (((dedup fingerprintTtl).restrict checkMisses).exec newDedup
      [.deliver "latency", .schedule 0 "inc-1", .finish 0, .tick 60, .deliver "latency"]).any
      (fun r => decide (r.1.entries "latency" = some ("inc-1", 0) ∧ r.1.now = 60 ∧
        r.2.length = 3)) = true := by
    decide +kernel
  obtain ⟨s, es, hr, hc⟩ := Sys.exists_checked_run missesAlone_of_check newDedup_new hexec
  obtain ⟨hentry, hnow, hlen⟩ := of_decide_eq_true hc
  exact ⟨_, es, s, hr, hentry, hnow, hlen, deduplicated hr⟩

/-- Two deliveries that both look up before one of them reserves schedule two incidents. -/
theorem scheduled_twice :
    ¬ ∀ (ttl : Ttl) (n : Nat) (es : List DeliveryEvent) (s : Dedup),
      (dedup ttl).Run Sys.anyStep n es s → Deduplicated ttl es s := by
  intro hall
  have hexec : ((dedup fingerprintTtl).exec newDedup
      [.deliver "latency", .deliver "latency", .schedule 0 "inc-1", .schedule 1 "inc-2"]).any
      (fun r => decide (r.2 =
        [.scheduled "latency" "inc-1" 0, .scheduled "latency" "inc-2" 0])) = true := by
    decide +kernel
  obtain ⟨s, es, hr, hc⟩ := Sys.exists_any_run newDedup_new hexec
  obtain rfl := of_decide_eq_true hc
  have hlt := (hall _ _ _ s hr).one [.scheduled "latency" "inc-1" 0] "latency" "inc-2" 0 [] rfl
    (by decide) "inc-1" 0 (by simp)
  exact absurd hlt (by decide +kernel)

end Api
end AutoSRE
