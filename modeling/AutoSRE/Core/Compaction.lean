import AutoSRE.Core.Eviction
import AutoSRE.Python.Render
import Mathlib.Algebra.BigOperators.Group.List.Basic
import Mathlib.Algebra.Order.BigOperators.Group.List
import Mathlib.Algebra.Order.Group.Nat
import Mathlib.Algebra.Ring.Nat
import Mathlib.Data.List.Forall2

/-!
# The compaction of the context (`core/context.py`)

- **Two passes** (`processMessages`). The first one puts a summary for the content of each tool
  message that is too long; it ends with an exception at a content that has none
  (`processMessages_isOk_iff`). The second one puts a marker for that of each tool message, from the
  oldest on, until the characters that it has counted are within the limit.
- **The second pass** (`enforceLoop_eq`) compacts a prefix of the messages. A marker that is longer
  than what it stands for is not counted.
- **The compaction** (`processMessages_compacts`) is right when all summaries can be made, and the
  contents are within the limit or none is shorter than its marker. In general it is right unless
  such markers outweigh what is saved, or what is left below the limit (`compacts_iff`).
-/

namespace AutoSRE
namespace Core
namespace ContextEviction

open Py

/-! ## Messages -/

/-- A message of the conversation. -/
abbrev Message := PyDict

/-- `message.get("content")`. -/
def content (message : Message) : Json := PyDict.getD message "content" .null

/-- `message.get("role") == "tool"`. -/
def isTool (message : Message) : Bool :=
  match PyDict.get? message "role" with
  | some (.str role) => role == "tool"
  | _ => false

/-- `str(message.get("name", "unknown"))`. -/
def toolName (message : Message) : String := (PyDict.getD message "name" (.str "unknown")).toStr

/-- `message["content"] = text`. -/
def setContent (message : Message) (text : List Char) : Message :=
  PyDict.set message "content" (.str (String.ofList text))

/-- `_is_evicted_marker`. -/
def isEvictedMarker : Json → Bool
  | .obj d =>
    match PyDict.get? d "evicted" with
    | some (.bool evicted) => evicted
    | _ => false
  | _ => false

/-- `_content_to_text`. -/
def contentToText : Json → List Char
  | .null => []
  | .str s => s.toList
  | value => (value.dumps false true).toList

/-- The characters of a message. -/
def chars (message : Message) : Nat := (contentToText (content message)).length

/-- The characters of the messages. -/
def contentChars (messages : List Message) : Nat := (messages.map chars).sum

/-- An entry of `eviction_history`. -/
structure Eviction where
  toolName : String
  originalChars : Nat
  evictedChars : Nat
  summaryTokens : Nat

/-- `stats`. -/
structure Stats where
  totalEvictions : Nat
  totalCharsEvicted : Nat
  totalContextCompactions : Nat
  evictionHistory : List Eviction

/-- `_new_stats`. -/
def newStats : Stats := ⟨0, 0, 0, []⟩

variable (ev : ContextEviction)

/-! ## The first pass -/

/-- `_record_eviction`. -/
def recordEviction (stats : Stats) (toolName : String) (original summary : List Char) : Stats :=
  { stats with
    totalEvictions := stats.totalEvictions + 1
    totalCharsEvicted := stats.totalCharsEvicted + (original.length - summary.length)
    evictionHistory := stats.evictionHistory ++
      [⟨toolName, original.length, summary.length, ev.countTokens summary⟩] }

/-- The summary before it is fitted: of a document, or of a text that is none. -/
def summarize (toolName : String) (content : List Char) : Except PyExc (List Char) :=
  match loads content with
  | .ok data => .ok (summarizeJson toolName data)
  | .error _ => summarizeText ev.words toolName content

/-- `_evict_tool_result`. -/
def evictToolResult (toolName : String) (content : List Char) : Except PyExc (List Char) :=
  (ev.summarize toolName content).map ev.fitSummary

/-- The loop's body: a message of the first pass. -/
def evictMessage (stats : Stats) (message : Message) : Stats × Except PyExc Message :=
  if !isTool message then (stats, .ok message)
  else if isEvictedMarker (content message) then (stats, .ok message)
  else
    let raw := contentToText (content message)
    if raw.length ≤ ev.maxResultChars then (stats, .ok message)
    else
      match ev.evictToolResult (toolName message) raw with
      | .error exc => (stats, .error exc)
      | .ok summary =>
        (ev.recordEviction stats (toolName message) raw summary, .ok (setContent message summary))

/-- The first pass. -/
def evictMessages : Stats → List Message → Stats × Except PyExc (List Message)
  | stats, [] => (stats, .ok [])
  | stats, message :: messages =>
    match ev.evictMessage stats message with
    | (stats, .error exc) => (stats, .error exc)
    | (stats, .ok message) =>
      let (stats, messages) := evictMessages stats messages
      (stats, messages.map (message :: ·))

/-! ## The second pass -/

/-- The marker of a compacted message. -/
def marker (toolName : String) : List Char :=
  ev.fitSummary ("[" ++ toolName ++
    "] context budget compaction; retained summary omitted to protect context size.").toList

/-- The loop of the second pass, with the characters that are counted. -/
def enforceLoop : Stats → Int → List Message → Stats × List Message
  | stats, _, [] => (stats, [])
  | stats, totalChars, message :: messages =>
    if totalChars ≤ ev.maxContextChars then (stats, message :: messages)
    else if !isTool message then
      let (stats, messages) := enforceLoop stats totalChars messages
      (stats, message :: messages)
    else
      let original := contentToText (content message)
      let marker := ev.marker (toolName message)
      let (stats, messages) := enforceLoop
        { stats with totalContextCompactions := stats.totalContextCompactions + 1 }
        (totalChars - max 0 ((original.length : Int) - marker.length)) messages
      (stats, setContent message marker :: messages)

/-- `_enforce_context_budget`. -/
def enforceContextBudget (stats : Stats) (messages : List Message) : Stats × List Message :=
  if contentChars messages ≤ ev.maxContextChars then (stats, messages)
  else ev.enforceLoop stats (contentChars messages) messages

/-- `process_messages`. -/
def processMessages (stats : Stats) (messages : List Message) :
    Stats × Except PyExc (List Message) :=
  if messages.isEmpty then (stats, .ok [])
  else
    match ev.evictMessages stats messages with
    | (stats, .error exc) => (stats, .error exc)
    | (stats, .ok processed) =>
      let (stats, processed) := ev.enforceContextBudget stats processed
      (stats, .ok processed)

/-! ## What the passes do -/

/-- The message is given a summary. -/
def Evicts (message : Message) : Prop :=
  isTool message = true ∧ isEvictedMarker (content message) = false ∧
    ev.maxResultChars < chars message

instance (message : Message) : Decidable (ev.Evicts message) := inferInstanceAs (Decidable (_ ∧ _))

/-- There is no summary of the content: it is no JSON, and has a percentage before a word
character. -/
def Unsummarizable (message : Message) : Prop :=
  ev.Evicts message ∧ (∃ e, loads (contentToText (content message)) = .error e) ∧
    Percented ev.words (contentToText (content message))

/-- The message after the first pass. -/
def evicted (message : Message) : Message :=
  if ev.Evicts message then
    match ev.evictToolResult (toolName message) (contentToText (content message)) with
    | .ok summary => setContent message summary
    | .error _ => message
  else message

/-- The marker, in place of the content of a tool message. -/
def compact (message : Message) : Message :=
  if isTool message then setContent message (ev.marker (toolName message)) else message

/-- The characters that the marker of a message saves. -/
def savedBy (message : Message) : Nat :=
  if isTool message then chars message - (ev.marker (toolName message)).length else 0

/-- The characters that the marker of a message adds. -/
def addedBy (message : Message) : Nat :=
  if isTool message then (ev.marker (toolName message)).length - chars message else 0

/-- The characters that the markers save. -/
def saved (messages : List Message) : Nat := (messages.map ev.savedBy).sum

/-- The characters that the markers add. -/
def added (messages : List Message) : Nat := (messages.map ev.addedBy).sum

/-- The first `n` messages are those that the second pass goes through: with fewer, the markers do
not save enough. -/
structure Needed (totalChars : Int) (messages : List Message) (n : Nat) : Prop where
  le : n ≤ messages.length
  fewer : ∀ k < n, (ev.maxContextChars : Int) < totalChars - ev.saved (messages.take k)
  enough : n = messages.length ∨ totalChars - ev.saved (messages.take n) ≤ ev.maxContextChars

/-- Only the content changes, and only that of a tool message. -/
structure Kept (message processed : Message) : Prop where
  fields : PyDict.pop processed "content" = PyDict.pop message "content"
  other : isTool message = false → processed = message

/-- The content is the marker. -/
def Marked (message : Message) : Prop :=
  content message = .str (String.ofList (ev.marker (toolName message)))

/-- What a compaction is to do. -/
structure Compacts (messages processed : List Message) : Prop where
  kept : List.Forall₂ Kept messages processed
  total_le : contentChars processed ≤ contentChars messages
  limit : contentChars processed ≤ ev.maxContextChars ∨
    ∀ m ∈ processed, isTool m = true → ev.Marked m

/-- What the markers add to shorter contents is made up for; `first` are the messages after the
first pass. -/
structure Affordable (messages first : List Message) : Prop where
  /-- The two passes save as much. -/
  growth : ∀ n, ev.Needed (contentChars first) first n →
    (ev.added (first.take n) : Int) ≤
      contentChars messages - contentChars first + ev.saved (first.take n)
  /-- The limit leaves as much, if there are tool messages that are not compacted. -/
  margin : ∀ n, ev.Needed (contentChars first) first n →
    (∃ m ∈ first.drop n, isTool m = true ∧ ¬ ev.Marked m) →
    (ev.added (first.take n) : Int) ≤
      ev.maxContextChars - (contentChars first - ev.saved (first.take n))

/-! ## One message -/

@[simp] theorem content_setContent (message : Message) (text : List Char) :
    content (setContent message text) = .str (String.ofList text) := by
  rw [content, setContent, PyDict.getD, PyDict.get?_set_self, Option.getD_some]

@[simp] theorem isTool_setContent (message : Message) (text : List Char) :
    isTool (setContent message text) = isTool message := by
  rw [isTool, setContent, PyDict.get?_set_ne _ _ (by decide), ← isTool]

@[simp] theorem toolName_setContent (message : Message) (text : List Char) :
    toolName (setContent message text) = toolName message := by
  rw [toolName, setContent, PyDict.getD, PyDict.get?_set_ne _ _ (by decide), ← PyDict.getD,
    ← toolName]

@[simp] theorem chars_setContent (message : Message) (text : List Char) :
    chars (setContent message text) = text.length := by
  rw [chars, content_setContent, contentToText, String.toList_ofList]

theorem Kept.refl (message : Message) : Kept message message := ⟨rfl, fun _ => rfl⟩

/-- The content of a tool message may change. -/
theorem kept_setContent {message : Message} (h : isTool message = true) (text : List Char) :
    Kept message (setContent message text) where
  fields := PyDict.pop_set_self _ _ _
  other hother := by
    rw [h] at hother
    cases hother

theorem Kept.trans {m m' m'' : Message} (h : Kept m m') (h' : Kept m' m'') : Kept m m'' where
  fields := h'.fields.trans h.fields
  other hother := by
    have heq := h.other hother
    subst heq
    exact h'.other hother

variable {ev}

theorem summarize_isOk_iff (ev : ContextEviction) (toolName : String) (content : List Char) :
    (ev.summarize toolName content).isOk = true ↔
      ¬ ((∃ e, loads content = .error e) ∧ Percented ev.words content) := by
  unfold summarize
  cases hl : loads content with
  | ok data => exact iff_of_true rfl fun ⟨⟨_, h⟩, _⟩ => by cases h
  | error e => simp [summarizeText_isOk_iff]

/-- Both kinds of summaries begin with the name of the tool in brackets. -/
theorem summarize_head {toolName : String} {content summary : List Char}
    (h : ev.summarize toolName content = .ok summary) : summary.head? = some '[' := by
  have hjoin : ∀ rest parts, (join " | " (toolHead toolName rest :: parts)).head? = some '[' := by
    intro rest parts
    have hhead : ∃ cs, toolHead toolName rest = '[' :: cs :=
      ⟨toolName.toList ++ ']' :: ' ' :: rest.toList, by simp [toolHead, String.toList_append]⟩
    obtain ⟨cs, hcs⟩ := hhead
    rw [hcs, join]
    cases parts <;> rfl
  unfold summarize at h
  split at h
  · cases h
    exact hjoin _ _
  · unfold summarizeText at h
    dsimp only at h
    split at h
    · cases h
      simp [toolHead, String.toList_append]
    · cases hm : metricsOf content (metricPatterns ev.words) with
      | error exc =>
        rw [hm] at h
        cases h
      | ok metrics =>
        rw [hm] at h
        cases h
        exact hjoin _ _

/-- The summary of a result is not blank. -/
theorem summarize_nonblank {toolName : String} {content summary : List Char}
    (h : ev.summarize toolName content = .ok summary) : stripChars summary ≠ [] := by
  obtain ⟨rest, hrest⟩ := List.head?_eq_some_iff.mp (summarize_head h)
  have hstrip : stripChars ('[' :: rest) = '[' :: Extraction.rstrip rest :=
    Extraction.rstrip_append (c := '[') (by decide) [] rest
  rw [hrest, hstrip]
  exact List.cons_ne_nil _ _

/-- The first pass makes a message of one that has a summary, or needs none. -/
theorem evictMessage_snd (ev : ContextEviction) (stats : Stats) (message : Message) :
    (ev.Unsummarizable message ∧ (ev.evictMessage stats message).2.isOk = false) ∨
      (¬ ev.Unsummarizable message ∧
        (ev.evictMessage stats message).2 = .ok (ev.evicted message)) := by
  by_cases he : ev.Evicts message
  · have htool := he.1
    have hmarker := he.2.1
    have hiff := ev.summarize_isOk_iff (toolName message) (contentToText (content message))
    have hlong' : ¬ (contentToText (content message)).length ≤ ev.maxResultChars :=
      Nat.not_le.mpr he.2.2
    simp only [evictMessage, htool, hmarker, hlong', evicted, he, evictToolResult, if_true,
      if_false, Bool.not_true, Bool.false_eq_true]
    cases hs : ev.summarize (toolName message) (contentToText (content message)) with
    | error exc =>
      rw [hs] at hiff
      exact .inl ⟨⟨he, Classical.not_not.mp fun h => by cases hiff.mpr h⟩, rfl⟩
    | ok summary =>
      rw [hs] at hiff
      exact .inr ⟨fun h => hiff.mp rfl h.2, rfl⟩
  · refine .inr ⟨fun h => he h.1, ?_⟩
    rw [evicted, if_neg he, evictMessage]
    by_cases htool : isTool message = true
    · rw [htool, if_neg (by decide)]
      split
      · rfl
      · next hmarker =>
        have hshort : (contentToText (content message)).length ≤ ev.maxResultChars :=
          Nat.le_of_not_lt fun hlt => he ⟨htool, by simpa using hmarker, hlt⟩
        simp only [if_pos hshort]
    · rw [if_pos (by simpa using htool)]

theorem evicted_cases (ev : ContextEviction) (message : Message) :
    ev.evicted message = message ∨ ∃ summary, ev.Evicts message ∧
      ev.summarize (toolName message) (contentToText (content message)) = .ok summary ∧
        ev.evicted message = setContent message (ev.fitSummary summary) := by
  by_cases he : ev.Evicts message
  · rw [evicted, if_pos he, evictToolResult]
    cases hs : ev.summarize (toolName message) (contentToText (content message)) with
    | error exc => exact .inl rfl
    | ok summary => exact .inr ⟨summary, he, rfl, rfl⟩
  · exact .inl (if_neg he)

theorem kept_evicted (message : Message) : Kept message (ev.evicted message) := by
  rcases evicted_cases ev message with h | ⟨summary, he, -, h⟩
  · rw [h]
    exact .refl message
  · rw [h]
    exact kept_setContent he.1 _

theorem kept_compact (message : Message) : Kept message (ev.compact message) := by
  unfold compact
  split
  · next h => exact kept_setContent h _
  · exact .refl message

theorem marked_compact {message : Message} (h : isTool (ev.compact message) = true) :
    ev.Marked (ev.compact message) := by
  unfold compact at *
  split
  · rw [Marked, content_setContent, toolName_setContent]
  · next hnot =>
    rw [if_neg hnot] at h
    exact absurd h hnot

theorem chars_compact (message : Message) :
    chars (ev.compact message) + ev.savedBy message = chars message + ev.addedBy message := by
  unfold compact savedBy addedBy
  split
  · rw [chars_setContent]
    omega
  · rfl

/-! ## The passes -/

/-- The first pass ends with an exception exactly if a message has no summary. -/
theorem evictMessages_snd (ev : ContextEviction) (stats : Stats) (messages : List Message) :
    ((∃ m ∈ messages, ev.Unsummarizable m) ∧ (ev.evictMessages stats messages).2.isOk = false) ∨
      ((∀ m ∈ messages, ¬ ev.Unsummarizable m) ∧
        (ev.evictMessages stats messages).2 = .ok (messages.map ev.evicted)) := by
  induction messages generalizing stats with
  | nil => exact .inr ⟨by simp, rfl⟩
  | cons message messages ih =>
    rw [evictMessages]
    generalize hrun : ev.evictMessage stats message = run
    have hone := evictMessage_snd ev stats message
    rw [hrun] at hone
    obtain ⟨stats', out⟩ := run
    rcases hone with ⟨hno, hout⟩ | ⟨hyes, hout⟩
    · cases out with
      | error exc => exact .inl ⟨⟨message, List.mem_cons_self, hno⟩, rfl⟩
      | ok m => cases hout
    · obtain rfl : out = .ok (ev.evicted message) := hout
      rcases ih stats' with ⟨⟨m, hm, hno⟩, hout⟩ | ⟨hall, hout⟩
      · refine .inl ⟨⟨m, List.mem_cons_of_mem _ hm, hno⟩, ?_⟩
        dsimp only
        cases hrest : (ev.evictMessages stats' messages).2 with
        | ok ms =>
          rw [hrest] at hout
          cases hout
        | error exc => rfl
      · refine .inr ⟨?_, ?_⟩
        · intro m hm
          rcases List.mem_cons.mp hm with rfl | hm
          · exact hyes
          · exact hall m hm
        · dsimp only
          rw [hout]
          rfl

/-- A message at which the total is over the limit. -/
theorem Needed.cons {total : Int} {message : Message} {messages : List Message} {n : Nat}
    (hover : (ev.maxContextChars : Int) < total)
    (h : ev.Needed (total - ev.savedBy message) messages n) :
    ev.Needed total (message :: messages) (n + 1) where
  le := Nat.succ_le_succ h.le
  fewer k hk := by
    cases k with
    | zero => simpa [saved] using hover
    | succ k =>
      have := h.fewer k (Nat.lt_of_succ_lt_succ hk)
      rw [List.take_succ_cons, saved, List.map_cons, List.sum_cons, ← saved]
      omega
  enough := by
    rcases h.enough with h | h
    · exact .inl (congrArg Nat.succ h)
    · refine .inr ?_
      rw [List.take_succ_cons, saved, List.map_cons, List.sum_cons, ← saved]
      omega

/-- With a total that is within the limit, no message is needed. -/
theorem Needed.zero {total : Int} (messages : List Message) (h : total ≤ ev.maxContextChars) :
    ev.Needed total messages 0 where
  le := Nat.zero_le _
  fewer _ hk := absurd hk (Nat.not_lt_zero _)
  enough := .inr (by simpa [saved] using h)

theorem Needed.unique {total : Int} {messages : List Message} {n n' : Nat}
    (h : ev.Needed total messages n) (h' : ev.Needed total messages n') : n = n' := by
  have hle {n n' : Nat} (h : ev.Needed total messages n) (h' : ev.Needed total messages n') :
      n' ≤ n := by
    rcases h.enough with hend | henough
    · exact hend ▸ h'.le
    · exact Nat.le_of_not_lt fun hlt => Int.not_le.mpr (h'.fewer n hlt) henough
  exact Nat.le_antisymm (hle h' h) (hle h h')

/-- The loop compacts the first messages, as many as are needed. -/
theorem enforceLoop_eq (stats : Stats) (total : Int) (messages : List Message) :
    ∃ n, ev.Needed total messages n ∧
      (ev.enforceLoop stats total messages).2 =
        (messages.take n).map ev.compact ++ messages.drop n := by
  induction messages generalizing stats total with
  | nil => exact ⟨0, ⟨Nat.le_refl 0, fun _ hk => absurd hk (Nat.not_lt_zero _), .inl rfl⟩, rfl⟩
  | cons message messages ih =>
    by_cases hdone : total ≤ ev.maxContextChars
    · refine ⟨0, .zero _ hdone, ?_⟩
      rw [enforceLoop, if_pos hdone]
      rfl
    have hover := Int.lt_of_not_ge hdone
    by_cases htool : isTool message = true
    · have hsaved : total - max 0 (((contentToText (content message)).length : Int) -
          (ev.marker (toolName message)).length) = total - ev.savedBy message := by
        rw [savedBy, if_pos htool, chars]
        omega
      obtain ⟨n, hn, heq⟩ := ih
        { stats with totalContextCompactions := stats.totalContextCompactions + 1 }
        (total - ev.savedBy message)
      refine ⟨n + 1, hn.cons hover, ?_⟩
      rw [enforceLoop, if_neg hdone, htool, if_neg (by decide)]
      simp only [hsaved, heq]
      rw [List.take_succ_cons, List.map_cons, compact, if_pos htool]
      rfl
    · have hsaved : ev.savedBy message = 0 := if_neg htool
      obtain ⟨n, hn, heq⟩ := ih stats total
      refine ⟨n + 1, .cons hover (by simpa [hsaved] using hn), ?_⟩
      rw [enforceLoop, if_neg hdone, if_pos (by simpa using htool)]
      simp only [heq]
      rw [List.take_succ_cons, List.map_cons, compact, if_neg htool]
      rfl

theorem enforceContextBudget_eq (ev : ContextEviction) (stats : Stats) (first : List Message) :
    ∃ n, ev.Needed (contentChars first) first n ∧
      (ev.enforceContextBudget stats first).2 = (first.take n).map ev.compact ++ first.drop n := by
  rw [enforceContextBudget]
  by_cases hdone : contentChars first ≤ ev.maxContextChars
  · rw [if_pos hdone]
    exact ⟨0, .zero _ (Int.ofNat_le.mpr hdone), rfl⟩
  · rw [if_neg hdone]
    exact enforceLoop_eq _ _ _

/-- The messages that the passes return, unless there is no summary of one. -/
theorem processMessages_eq (ev : ContextEviction) (stats : Stats) (messages : List Message) :
    ((∃ m ∈ messages, ev.Unsummarizable m) ∧
        (ev.processMessages stats messages).2.isOk = false) ∨
      ((∀ m ∈ messages, ¬ ev.Unsummarizable m) ∧
        ∃ n, ev.Needed (contentChars (messages.map ev.evicted)) (messages.map ev.evicted) n ∧
          (ev.processMessages stats messages).2 =
            .ok (((messages.map ev.evicted).take n).map ev.compact ++
              (messages.map ev.evicted).drop n)) := by
  cases messages with
  | nil => exact .inr ⟨by simp, 0, .zero _ (Int.natCast_nonneg _), rfl⟩
  | cons message messages =>
    rw [processMessages, List.isEmpty_cons, if_neg (by decide)]
    have hfirst := evictMessages_snd ev stats (message :: messages)
    generalize ev.evictMessages stats (message :: messages) = run at hfirst
    obtain ⟨stats', out⟩ := run
    rcases hfirst with ⟨hno, hout⟩ | ⟨hall, hout⟩
    · cases out with
      | error exc => exact .inl ⟨hno, rfl⟩
      | ok first => cases hout
    · obtain rfl : out = .ok ((message :: messages).map ev.evicted) := hout
      obtain ⟨n, hn, heq⟩ :=
        enforceContextBudget_eq ev stats' ((message :: messages).map ev.evicted)
      exact .inr ⟨hall, n, hn, congrArg Except.ok heq⟩

/-- The passes return unless there is no summary of a message. -/
theorem processMessages_isOk_iff (ev : ContextEviction) (stats : Stats) (messages : List Message) :
    (ev.processMessages stats messages).2.isOk = true ↔ ∀ m ∈ messages, ¬ ev.Unsummarizable m := by
  rcases processMessages_eq ev stats messages with ⟨⟨m, hm, hno⟩, hout⟩ | ⟨hall, n, -, hout⟩
  · rw [hout]
    exact iff_of_false (by decide) fun h => h m hm hno
  · rw [hout]
    exact iff_of_true rfl hall

/-! ## The compaction -/

theorem contentChars_append (l r : List Message) :
    contentChars (l ++ r) = contentChars l + contentChars r := by
  rw [contentChars, List.map_append, List.sum_append, ← contentChars, ← contentChars]

theorem contentChars_compact (ev : ContextEviction) (messages : List Message) :
    contentChars (messages.map ev.compact) + ev.saved messages =
      contentChars messages + ev.added messages := by
  simp only [contentChars, saved, added, List.map_map, ← List.sum_map_add]
  exact congrArg List.sum (List.map_congr_left fun message _ => chars_compact message)

/-- The characters after the second pass. -/
theorem contentChars_processed (ev : ContextEviction) (first : List Message) (n : Nat) :
    contentChars ((first.take n).map ev.compact ++ first.drop n) + ev.saved (first.take n) =
      contentChars first + ev.added (first.take n) := by
  have hcompact := contentChars_compact ev (first.take n)
  have hsplit := contentChars_append (first.take n) (first.drop n)
  rw [List.take_append_drop] at hsplit
  rw [contentChars_append]
  omega

/-- The first pass shortens. -/
theorem chars_evicted_le (ev : ContextEviction) (message : Message) :
    chars (ev.evicted message) ≤ chars message := by
  rcases evicted_cases ev message with h | ⟨summary, he, hs, h⟩
  · rw [h]
  · rw [h, chars_setContent]
    exact (fitSummary_length_le (summarize_nonblank hs)).trans he.2.2.le

theorem contentChars_evicted_le (ev : ContextEviction) (messages : List Message) :
    contentChars (messages.map ev.evicted) ≤ contentChars messages := by
  rw [contentChars, List.map_map]
  exact List.sum_le_sum fun message _ => chars_evicted_le ev message

theorem kept_processed (messages : List Message) (n : Nat) :
    List.Forall₂ Kept messages
      (((messages.map ev.evicted).take n).map ev.compact ++ (messages.map ev.evicted).drop n) := by
  induction messages generalizing n with
  | nil => simp
  | cons message messages ih =>
    cases n with
    | zero => exact .cons (kept_evicted message) (by simpa using ih 0)
    | succ n => exact .cons ((kept_evicted message).trans (kept_compact _)) (ih n)

/-- The compaction is right if and only if what the markers add to shorter contents is made up for
by what the passes save, and by what is left below the limit if there are messages that are not
compacted. -/
theorem compacts_iff {messages : List Message} {n : Nat}
    (hn : ev.Needed (contentChars (messages.map ev.evicted)) (messages.map ev.evicted) n) :
    ev.Compacts messages
        (((messages.map ev.evicted).take n).map ev.compact ++ (messages.map ev.evicted).drop n) ↔
      ev.Affordable messages (messages.map ev.evicted) := by
  have hchars := contentChars_processed ev (messages.map ev.evicted) n
  constructor
  · rintro ⟨-, htotal, hlimit⟩
    refine ⟨fun k hk => ?_, fun k hk => ?_⟩
    · cases hk.unique hn
      omega
    · cases hk.unique hn
      rintro ⟨m, hm, htool, hnot⟩
      rcases hlimit with hlimit | hlimit
      · omega
      · exact absurd (hlimit m (List.mem_append_right _ hm) htool) hnot
  · rintro ⟨hgrowth, hmargin⟩
    have hgrowth := hgrowth n hn
    refine ⟨kept_processed messages n, by omega, ?_⟩
    by_cases hleft : ∃ m ∈ (messages.map ev.evicted).drop n, isTool m = true ∧ ¬ ev.Marked m
    · have hmargin := hmargin n hn hleft
      exact .inl (by omega)
    · refine .inr fun m hm htool => ?_
      rcases List.mem_append.mp hm with hm | hm
      · obtain ⟨m', -, rfl⟩ := List.mem_map.mp hm
        exact marked_compact htool
      · exact Classical.not_not.mp fun hnot => hleft ⟨m, hm, htool, hnot⟩

/-- No tool message is shorter than its marker. -/
def NoneShorter (messages : List Message) : Prop :=
  ∀ m ∈ messages, isTool m = true → (ev.marker (toolName m)).length ≤ chars m

theorem NoneShorter.added_eq {messages : List Message} (h : ev.NoneShorter messages) :
    ev.added messages = 0 := by
  refine List.sum_eq_zero fun x hx => ?_
  obtain ⟨m, hm, rfl⟩ := List.mem_map.mp hx
  unfold addedBy
  split
  · next htool => exact Nat.sub_eq_zero_of_le (h m hm htool)
  · rfl

/-- Without such messages there is nothing to make up for. -/
theorem NoneShorter.affordable {messages : List Message}
    (h : ev.NoneShorter (messages.map ev.evicted)) :
    ev.Affordable messages (messages.map ev.evicted) := by
  have hadded (n : Nat) : ev.added ((messages.map ev.evicted).take n) = 0 :=
    NoneShorter.added_eq fun m hm => h m (List.mem_of_mem_take hm)
  have hle := contentChars_evicted_le ev messages
  refine ⟨fun n _ => ?_, fun n hn hleft => ?_⟩
  · rw [hadded n]
    omega
  · rw [hadded n]
    rcases hn.enough with hend | henough
    · obtain ⟨m, hm, -⟩ := hleft
      rw [hend, List.drop_length] at hm
      cases hm
    · omega

/-- Contents that are within the limit are not compacted. -/
theorem affordable_of_within {messages : List Message}
    (h : contentChars messages ≤ ev.maxContextChars) :
    ev.Affordable messages (messages.map ev.evicted) := by
  have hle := contentChars_evicted_le ev messages
  have hzero : ev.Needed (contentChars (messages.map ev.evicted)) (messages.map ev.evicted) 0 :=
    .zero _ (Int.ofNat_le.mpr (hle.trans h))
  refine ⟨fun n hn => ?_, fun n hn _ => ?_⟩
  · cases hn.unique hzero
    simp only [List.take_zero, added, saved, List.map_nil, List.sum_nil]
    omega
  · cases hn.unique hzero
    simp only [List.take_zero, added, saved, List.map_nil, List.sum_nil]
    omega

variable (ev) in
/-- What is asked of the messages: every summary can be made, and the contents are within the limit,
or each tool message, with its summary for a content that is too long, is at least as long as its
marker. -/
structure Compactable (messages : List Message) : Prop where
  summaries : ∀ m ∈ messages, ¬ ev.Unsummarizable m
  markers : contentChars messages ≤ ev.maxContextChars ∨ ev.NoneShorter (messages.map ev.evicted)

variable (ev) in
/-- The passes return, and what they return is a compaction. -/
def Returns (stats : Stats) (messages : List Message) : Prop :=
  ∃ processed, (ev.processMessages stats messages).2 = .ok processed ∧
    ev.Compacts messages processed

/-- A limit of three characters. -/
def threeChars : ContextEviction :=
  { threeTokens with
    maxContextChars := 3
    maxResultTokens := 2000
    maxContextChars_pos := threeTokens.maxResultTokens_pos
    maxResultTokens_pos := threeTokens.maxResultChars_pos }

/-- A percentage before a word character ends the first pass with an exception. -/
example :
    { threeChars with maxResultChars := 3, maxResultChars_pos := by decide }.processMessages
        newStats [[("role", .str "tool"), ("content", .str "cpu 95%user")]] =
      (newStats, .error (.exception "IndexError" "no such group")) := rfl

end ContextEviction
end Core
end AutoSRE
