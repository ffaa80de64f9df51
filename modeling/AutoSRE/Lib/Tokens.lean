import Mathlib.Data.List.Infix

/-!
# The tokens of a text

A text is read character by character: words, quoted texts and symbols, with blanks between them.
A text ends inside a quoted text or a comment if that is not closed.

* `Lexis`: the blanks and the characters of a word. `step` reads one character.
* `tokens_append_blank`: a blank after a closed text separates its tokens from what follows.
* `tokens_blanks_append`, `tokens_append_blanks`: blanks around a text do not matter.
* `word_infix`: a word stands in the text.
-/

namespace AutoSRE
namespace Lib

/-- A token; `double` tells the quotation marks apart. -/
inductive Token where
  | word (w : List Char)
  | quoted (double : Bool) (text : List Char)
  | symbol (c : Char)
  | unclosed
  deriving DecidableEq, Repr

/-- The quotation mark. -/
def quoteMark : Bool → Char
  | false => '\''
  | true => '"'

/-- The blanks and the characters of a word. -/
structure Lexis where
  blank : Char → Bool
  word : Char → Bool
  blank_word : ∀ c, blank c = true → word c = false
  blank_mark : ∀ c ∈ ['\'', '"', '-', '*'], blank c = false
  word_mark : ∀ c ∈ ['\'', '"'], word c = false

namespace Lexis

/-- What has been read of a token: nothing, nothing after a symbol, a part of a word or of a quoted
text; or a comment. -/
inductive Pending where
  | clear
  | after (c : Char)
  | word (w : List Char)
  | quoted (double : Bool) (text : List Char)
  | comment

/-- The pending part is a whole token, or none. -/
def Pending.closed : Pending → Bool
  | .clear | .after _ | .word _ => true
  | .quoted _ _ | .comment => false

/-- The tokens that have been read, and the pending part. -/
structure State where
  done : List Token
  pending : Pending

variable (l : Lexis)

/-- A character where a token can start. -/
def start (done : List Token) (c : Char) : State :=
  if l.blank c then ⟨done, .clear⟩
  else if c = '\'' then ⟨done, .quoted false []⟩
  else if c = '"' then ⟨done, .quoted true []⟩
  else if l.word c then ⟨done, .word [c]⟩
  else ⟨done ++ [.symbol c], .after c⟩

/-- Two symbols start a comment. -/
def startsComment (d c : Char) : Bool := (d == '-' && c == '-') || (d == '/' && c == '*')

/-- The next character. -/
def step (s : State) (c : Char) : State :=
  match s.pending with
  | .clear => l.start s.done c
  | .after d => if startsComment d c then ⟨s.done, .comment⟩ else l.start s.done c
  | .word w => if l.word c then ⟨s.done, .word (w ++ [c])⟩ else l.start (s.done ++ [.word w]) c
  | .quoted double text =>
    if c = quoteMark double then ⟨s.done ++ [.quoted double text], .clear⟩
    else ⟨s.done, .quoted double (text ++ [c])⟩
  | .comment => s

/-- The tokens of the pending part, at the end of the text. -/
def Pending.rest : Pending → List Token
  | .clear | .after _ => []
  | .word w => [.word w]
  | .quoted _ _ | .comment => [.unclosed]

/-- The tokens at the end of the text. -/
def State.flush (s : State) : List Token := s.done ++ s.pending.rest

/-- The state after a text. -/
def run (s : State) (text : List Char) : State := text.foldl l.step s

/-- The tokens of a text. -/
def tokens (text : List Char) : List Token := (l.run ⟨[], .clear⟩ text).flush

/-- The text does not end inside a quoted text or a comment. -/
def Closed (text : List Char) : Prop := (l.run ⟨[], .clear⟩ text).pending.closed = true

/-! ## Steps -/

theorem run_append (s : State) (text text' : List Char) :
    l.run s (text ++ text') = l.run (l.run s text) text' := List.foldl_append

/-- Tokens that are read are kept. -/
def State.prepend (before : List Token) (s : State) : State := ⟨before ++ s.done, s.pending⟩

theorem start_prepend (before done : List Token) (c : Char) :
    l.start (before ++ done) c = (l.start done c).prepend before := by
  unfold start
  split_ifs
  all_goals simp only [State.prepend, List.append_assoc]

theorem step_prepend (before : List Token) (s : State) (c : Char) :
    l.step (s.prepend before) c = (l.step s c).prepend before := by
  obtain ⟨done, pending⟩ := s
  cases pending with
  | clear => exact l.start_prepend before done c
  | after d =>
    simp only [step, State.prepend]
    split
    · rfl
    · exact l.start_prepend before done c
  | word w =>
    simp only [step, State.prepend]
    split
    · rfl
    · rw [List.append_assoc]
      exact l.start_prepend before (done ++ [.word w]) c
  | quoted double text =>
    simp only [step, State.prepend]
    split
    · rw [List.append_assoc]
    · rfl
  | comment => rfl

theorem run_prepend (before : List Token) (s : State) (text : List Char) :
    l.run (s.prepend before) text = (l.run s text).prepend before := by
  induction text generalizing s with
  | nil => rfl
  | cons c text ih =>
    rw [run, List.foldl_cons, step_prepend, ← run, ih]
    rfl

/-- The tokens of a text that is read after others. -/
theorem flush_run (before : List Token) (text : List Char) :
    (l.run ⟨before, .clear⟩ text).flush = before ++ l.tokens text := by
  have hrun := l.run_prepend before ⟨[], .clear⟩ text
  rw [State.prepend, List.append_nil] at hrun
  rw [hrun, State.prepend, State.flush, tokens, State.flush, List.append_assoc]

/-- A character that starts no comment, after a closed text. -/
theorem step_closed {s : State} (h : s.pending.closed = true) {c : Char} (hword : l.word c = false)
    (hcomment : ∀ d, startsComment d c = false) : l.step s c = l.start s.flush c := by
  obtain ⟨done, pending⟩ := s
  cases pending with
  | clear => rw [State.flush, Pending.rest, List.append_nil]; rfl
  | after d =>
    rw [State.flush, Pending.rest, List.append_nil]
    simp only [step, hcomment d, Bool.false_eq_true, if_false]
  | word w =>
    simp only [step, hword, Bool.false_eq_true, if_false]
    rfl
  | quoted double text => cases h
  | comment => cases h

theorem startsComment_ne {c : Char} (h : c ≠ '-') (h' : c ≠ '*') (d : Char) :
    startsComment d c = false := by
  simp [startsComment, h, h']

theorem blank_ne {c d : Char} (hc : l.blank c = true) (hd : d ∈ ['\'', '"', '-', '*']) :
    c ≠ d := by
  rintro rfl
  rw [l.blank_mark c hd] at hc
  cases hc

/-- A blank ends the pending part. -/
theorem step_blank {s : State} (h : s.pending.closed = true) {c : Char} (hc : l.blank c = true) :
    l.step s c = ⟨s.flush, .clear⟩ := by
  rw [l.step_closed h (l.blank_word c hc)
    (startsComment_ne (l.blank_ne hc (by simp)) (l.blank_ne hc (by simp))), start, if_pos hc]

/-- A character that is no quotation mark closes nothing. -/
theorem closed_of_step {s : State} {c : Char} (hmark : c ≠ '\'' ∧ c ≠ '"')
    (h : (l.step s c).pending.closed = true) : s.pending.closed = true := by
  obtain ⟨done, pending⟩ := s
  cases pending with
  | clear => rfl
  | after d => rfl
  | word w => rfl
  | quoted double text =>
    have hne : c ≠ quoteMark double := by
      cases double
      · exact hmark.1
      · exact hmark.2
    simp only [step, if_neg hne] at h
    cases h
  | comment => cases h

/-! ## Texts -/

theorem closed_of_tokens {text : List Char} (h : .unclosed ∉ l.tokens text) : l.Closed text := by
  unfold Closed
  rw [tokens, State.flush] at h
  generalize (l.run ⟨[], .clear⟩ text) = s at h ⊢
  obtain ⟨done, pending⟩ := s
  cases pending with
  | clear => rfl
  | after d => rfl
  | word w => rfl
  | quoted double text => exact absurd (List.mem_append_right _ (List.mem_singleton_self _)) h
  | comment => exact absurd (List.mem_append_right _ (List.mem_singleton_self _)) h

theorem closed_of_concat {text : List Char} {c : Char} (hmark : c ≠ '\'' ∧ c ≠ '"')
    (h : l.Closed (text ++ [c])) : l.Closed text := by
  rw [Closed, run_append] at h
  exact l.closed_of_step hmark h

/-- A blank after a closed text separates. -/
theorem tokens_append_blank {text : List Char} (h : l.Closed text) {c : Char}
    (hc : l.blank c = true) (text' : List Char) :
    l.tokens (text ++ c :: text') = l.tokens text ++ l.tokens text' := by
  have hrun : l.run ⟨[], .clear⟩ (text ++ c :: text') =
      l.run (l.step (l.run ⟨[], .clear⟩ text) c) text' := l.run_append _ text (c :: text')
  rw [tokens, hrun, l.step_blank h hc, flush_run, ← tokens]

theorem closed_append_blank {text text' : List Char} (h : l.Closed text) (h' : l.Closed text')
    {c : Char} (hc : l.blank c = true) : l.Closed (text ++ c :: text') := by
  have hrun : l.run ⟨[], .clear⟩ (text ++ c :: text') =
      l.run (l.step (l.run ⟨[], .clear⟩ text) c) text' := l.run_append _ text (c :: text')
  have hprepend := l.run_prepend (l.run ⟨[], .clear⟩ text).flush ⟨[], .clear⟩ text'
  rw [State.prepend, List.append_nil] at hprepend
  rw [Closed, hrun, l.step_blank h hc, hprepend]
  exact h'

theorem tokens_blanks_append {blanks : List Char} (h : ∀ c ∈ blanks, l.blank c = true)
    (text : List Char) : l.tokens (blanks ++ text) = l.tokens text := by
  induction blanks with
  | nil => rfl
  | cons c blanks ih =>
    have hstep : l.step ⟨[], .clear⟩ c = ⟨[], .clear⟩ :=
      l.step_blank rfl (h c List.mem_cons_self)
    rw [List.cons_append, tokens, run, List.foldl_cons, hstep, ← run, ← tokens]
    exact ih fun d hd => h d (List.mem_cons_of_mem c hd)

theorem tokens_append_blanks {blanks : List Char} (h : ∀ c ∈ blanks, l.blank c = true)
    {text : List Char} (hclosed : l.Closed (text ++ blanks)) :
    l.Closed text ∧ l.tokens (text ++ blanks) = l.tokens text := by
  induction blanks generalizing text with
  | nil =>
    rw [List.append_nil] at hclosed ⊢
    exact ⟨hclosed, rfl⟩
  | cons c blanks ih =>
    have hc := h c List.mem_cons_self
    rw [List.append_cons] at hclosed ⊢
    obtain ⟨hconcat, htokens⟩ := ih (fun d hd => h d (List.mem_cons_of_mem c hd)) hclosed
    have htext := l.closed_of_concat ⟨l.blank_ne hc (by simp), l.blank_ne hc (by simp)⟩ hconcat
    refine ⟨htext, ?_⟩
    rw [htokens, l.tokens_append_blank htext hc]
    exact List.append_nil _

/-- A symbol after a closed text. -/
theorem tokens_concat_symbol {text : List Char} (h : l.Closed text) {c : Char}
    (hblank : l.blank c = false) (hword : l.word c = false)
    (hother : c ∉ ['\'', '"', '-', '*']) :
    l.tokens (text ++ [c]) = l.tokens text ++ [.symbol c] := by
  have hne {d : Char} (hd : d ∈ ['\'', '"', '-', '*']) : c ≠ d := fun heq => hother (heq ▸ hd)
  have hrun : l.run ⟨[], .clear⟩ (text ++ [c]) = l.step (l.run ⟨[], .clear⟩ text) c :=
    l.run_append _ text [c]
  rw [tokens, hrun, l.step_closed h hword (startsComment_ne (hne (by simp)) (hne (by simp))), start,
    if_neg (by simp [hblank]), if_neg (hne (by simp)), if_neg (hne (by simp)),
    if_neg (by simp [hword])]
  exact List.append_nil _

/-- The last character, if it is not a blank, ends the last token. -/
theorem start_last {done before : List Token} {c d : Char} (hblank : l.blank c = false)
    (hclosed : (l.start done c).pending.closed = true)
    (h : (l.start done c).flush = before ++ [.symbol d]) : c = d := by
  rw [start, if_neg (by simp [hblank])] at h hclosed
  split_ifs at h hclosed
  · cases hclosed
  · cases hclosed
  · have hlast := (List.append_inj' h rfl).2
    cases hlast
  · rw [State.flush, Pending.rest, List.append_nil] at h
    have hlast := (List.append_inj' h rfl).2
    cases hlast
    rfl

theorem last_symbol {text : List Char} {before : List Token} {c d : Char}
    (hblank : l.blank c = false) (hclosed : l.Closed (text ++ [c]))
    (h : l.tokens (text ++ [c]) = before ++ [.symbol d]) : c = d := by
  have hrun : l.run ⟨[], .clear⟩ (text ++ [c]) = l.step (l.run ⟨[], .clear⟩ text) c :=
    l.run_append _ text [c]
  rw [tokens, hrun] at h
  rw [Closed, hrun] at hclosed
  generalize l.run ⟨[], .clear⟩ text = s at h hclosed
  obtain ⟨done, pending⟩ := s
  cases pending with
  | clear => exact l.start_last hblank hclosed h
  | after e =>
    simp only [step] at h hclosed
    split_ifs at h hclosed
    · cases hclosed
    · exact l.start_last hblank hclosed h
  | word w =>
    simp only [step] at h hclosed
    split_ifs at h hclosed
    · have hlast := (List.append_inj' h rfl).2
      cases hlast
    · exact l.start_last hblank hclosed h
  | quoted double quotation =>
    simp only [step] at h hclosed
    split_ifs at h hclosed
    · rw [State.flush, Pending.rest, List.append_nil] at h
      have hlast := (List.append_inj' h rfl).2
      cases hlast
    · cases hclosed
  | comment => cases hclosed

/-! ## Words -/

theorem run_word {v : List Char} (h : ∀ c ∈ v, l.word c = true) (done : List Token)
    (w : List Char) : l.run ⟨done, .word w⟩ v = ⟨done, .word (w ++ v)⟩ := by
  induction v generalizing w with
  | nil => rw [List.append_nil]; rfl
  | cons c v ih =>
    have hstep : l.step ⟨done, .word w⟩ c = ⟨done, .word (w ++ [c])⟩ :=
      if_pos (h c List.mem_cons_self)
    rw [run, List.foldl_cons, hstep, ← run, ih fun d hd => h d (List.mem_cons_of_mem c hd),
      List.append_assoc, List.singleton_append]

/-- A text of characters of a word is one word. -/
theorem run_of_word {c : Char} {w : List Char} (h : ∀ d ∈ c :: w, l.word d = true) :
    l.run ⟨[], .clear⟩ (c :: w) = ⟨[], .word (c :: w)⟩ := by
  have hc := h c List.mem_cons_self
  have hne {d : Char} (hd : d ∈ ['\'', '"']) : c ≠ d := by
    rintro rfl
    rw [l.word_mark c hd] at hc
    cases hc
  have hblank : ¬ l.blank c = true := by
    intro hblank
    rw [l.blank_word c hblank] at hc
    cases hc
  have hstart : l.start [] c = ⟨[], .word [c]⟩ := by
    rw [start, if_neg hblank, if_neg (hne (by simp)), if_neg (hne (by simp)), if_pos hc]
  have hrun : l.run ⟨[], .clear⟩ (c :: w) = l.run (l.start [] c) w := rfl
  rw [hrun, hstart, l.run_word fun d hd => h d (List.mem_cons_of_mem c hd)]
  rfl

theorem tokens_of_word {c : Char} {w : List Char} (h : ∀ d ∈ c :: w, l.word d = true) :
    l.tokens (c :: w) = [.word (c :: w)] := by
  rw [tokens, l.run_of_word h]
  rfl

/-- The words that have been read stand in the text, and the pending one at its end. -/
structure WordsOf (text : List Char) (s : State) : Prop where
  done : ∀ w, .word w ∈ s.done → w <:+: text
  pending : ∀ w, s.pending = .word w → w <:+ text

theorem WordsOf.start {text : List Char} {c : Char} {done : List Token}
    (h : ∀ w, .word w ∈ done → w <:+: text) : WordsOf (text ++ [c]) (l.start done c) := by
  have hdone : ∀ w, .word w ∈ done → w <:+: text ++ [c] :=
    fun w hw => (h w hw).trans (List.prefix_append text [c]).isInfix
  unfold Lexis.start
  split_ifs
  · exact ⟨hdone, fun w hw => by cases hw⟩
  · exact ⟨hdone, fun w hw => by cases hw⟩
  · exact ⟨hdone, fun w hw => by cases hw⟩
  · refine ⟨hdone, fun w hw => ?_⟩
    cases hw
    exact List.suffix_append text [c]
  · refine ⟨fun w hw => ?_, fun w hw => by cases hw⟩
    rcases List.mem_append.mp hw with hw | hw
    · exact hdone w hw
    · cases List.mem_singleton.mp hw

theorem WordsOf.step {text : List Char} {s : State} (h : WordsOf text s) (c : Char) :
    WordsOf (text ++ [c]) (l.step s c) := by
  have hdone : ∀ w, .word w ∈ s.done → w <:+: text ++ [c] :=
    fun w hw => (h.done w hw).trans (List.prefix_append text [c]).isInfix
  obtain ⟨done, pending⟩ := s
  cases pending with
  | clear => exact .start l h.done
  | after d =>
    simp only [Lexis.step]
    split
    · exact ⟨hdone, fun w hw => by cases hw⟩
    · exact .start l h.done
  | word w =>
    have hw := h.pending w rfl
    simp only [Lexis.step]
    split
    · refine ⟨hdone, fun w' hw' => ?_⟩
      cases hw'
      obtain ⟨before, rfl⟩ := hw
      rw [List.append_assoc]
      exact List.suffix_append before (w ++ [c])
    · refine .start l fun w' hw' => ?_
      rcases List.mem_append.mp hw' with hw' | hw'
      · exact h.done w' hw'
      · cases List.mem_singleton.mp hw'
        exact hw.isInfix
  | quoted double quotation =>
    simp only [Lexis.step]
    split
    · refine ⟨fun w hw => ?_, fun w hw => by cases hw⟩
      rcases List.mem_append.mp hw with hw | hw
      · exact hdone w hw
      · cases List.mem_singleton.mp hw
    · exact ⟨hdone, fun w hw => by cases hw⟩
  | comment => exact ⟨hdone, fun w hw => by cases hw⟩

theorem wordsOf_run (text : List Char) : WordsOf text (l.run ⟨[], .clear⟩ text) := by
  induction text using List.reverseRecOn with
  | nil => exact ⟨fun w hw => absurd hw List.not_mem_nil, fun w hw => by cases hw⟩
  | append_singleton text c ih =>
    rw [run_append]
    exact ih.step l c

/-- A word stands in the text. -/
theorem word_infix {text w : List Char} (h : .word w ∈ l.tokens text) : w <:+: text := by
  have hwords := l.wordsOf_run text
  rw [tokens, State.flush] at h
  rcases List.mem_append.mp h with h | h
  · exact hwords.done w h
  · generalize l.run ⟨[], .clear⟩ text = s at h hwords
    obtain ⟨done, pending⟩ := s
    cases pending with
    | clear => cases h
    | after d => cases h
    | word w' =>
      cases List.mem_singleton.mp h
      exact (hwords.pending w rfl).isInfix
    | quoted double quotation => cases List.mem_singleton.mp h
    | comment => cases List.mem_singleton.mp h

end Lexis
end Lib
end AutoSRE
