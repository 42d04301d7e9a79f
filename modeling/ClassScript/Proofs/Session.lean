import ClassScript.Proofs.Token.Braces
import ClassScript.Session

/-! # When a session waits

A session counts the braces of its lines as they come in.  `Collects lines s` says which lines a session has
taken since it was last empty, along any history of it.  The count is that of all of these lines
(`Collects.depth_eq`), so it is the count of the brace tokens in them and of the braces in their comments: a
session waits for another line exactly while these two together leave a block open (`feed_waits_iff`).

Whether it waits or not, no line is lost and none is given back twice (`session_conserves`).
-/

namespace ClassScript

namespace Session

/-! ## Counts -/

@[simp]
theorem braces_append (text line : String) : braces (text ++ line) = braces text + braces line := by
  simp only [braces, String.toList_append, List.count_append]
  omega

/-- How many braces of a kind there are in a text: those that are tokens and those in comments. -/
theorem count_char (brace : Brace) (text : String) :
    let source := Text.Utf8.encode text.toList
    text.toList.count brace.char
      = (tokenize source).1.countP (·.kind = brace.kind) + (commentBytes source).count brace.byte := by
  intro source
  rw [← count_brace, ← Text.Utf8.count_encode (Piece.ascii_brace brace)]
  rfl

/-! ## Lines since the last chunk -/

def collected (lines : List String) : String := lines.foldl (fun text line => text ++ line ++ "\n") ""

theorem collected_append (lines : List String) (line : String) :
    collected (lines ++ [line]) = collected lines ++ line ++ "\n" := by
  simp [collected]

inductive Collects : List String → Session → Prop
  | start (policy : Policy) (machine : Machine) : Collects [] { policy, machine }
  | reset {lines : List String} {s : Session} : Collects lines s → Collects [] s.reset
  | withheld {lines : List String} {s : Session} {line : String} :
      Collects lines s → (s.feed line).1 = none → Collects (lines ++ [line]) (s.feed line).2
  | completed {lines : List String} {s : Session} {line chunk : String} :
      Collects lines s → (s.feed line).1 = some chunk → Collects [] (s.feed line).2
  | ran {lines : List String} {s : Session} (chunk : String) :
      Collects lines s → Collects lines (s.run chunk).2

/-- A line is kept while a block is open, and otherwise all that was kept comes back. -/
theorem feed_cases (s : Session) (line : String) :
    (0 < s.depth + braces line ∧
      s.feed line = (none, { s with buffer := s.buffer ++ line ++ "\n", depth := s.depth + braces line })) ∨
    (s.depth + braces line ≤ 0 ∧ s.feed line = (some (s.buffer ++ line ++ "\n"), s.reset)) := by
  by_cases opened : 0 < s.depth + braces line
  · exact .inl ⟨opened, by simp [feed, pending, opened]⟩
  · exact .inr ⟨Int.not_lt.1 opened, by simp [feed, pending, opened, reset]⟩

theorem run_keeps (s : Session) (chunk : String) :
    (s.run chunk).2.buffer = s.buffer ∧ (s.run chunk).2.depth = s.depth := by
  simp only [run]
  split
  · exact ⟨rfl, rfl⟩
  · split
    · exact ⟨rfl, rfl⟩
    · exact ⟨rfl, rfl⟩

/-- A session keeps the text of its lines and counts the braces of that text. -/
theorem Collects.holds {lines : List String} {s : Session} (collects : Collects lines s) :
    s.buffer = collected lines ∧ s.depth = braces (collected lines) := by
  induction collects with
  | start | reset => exact ⟨rfl, rfl⟩
  | @withheld lines s line _ waits ih =>
    obtain ⟨buffer, depth⟩ := ih
    rcases feed_cases s line with ⟨_, is⟩ | ⟨_, is⟩
    · have ending : braces "\n" = 0 := by decide
      rw [is, collected_append, braces_append, braces_append, ← buffer, ending, buffer, ← depth]
      exact ⟨rfl, (Int.add_zero _).symm⟩
    · rw [is] at waits
      cases waits
  | @completed lines s line chunk _ comes _ =>
    rcases feed_cases s line with ⟨_, is⟩ | ⟨_, is⟩
    · rw [is] at comes
      cases comes
    · rw [is]
      exact ⟨rfl, rfl⟩
  | ran chunk _ ih => rwa [(run_keeps _ chunk).1, (run_keeps _ chunk).2]

/-- The count of a session once it has another line, by tokens and comments. -/
theorem Collects.depth_eq {lines : List String} {s : Session} (collects : Collects lines s) (line : String) :
    let source := Text.Utf8.encode (collected (lines ++ [line])).toList
    let tokens (brace : Brace) := (tokenize source).1.countP (·.kind = brace.kind)
    let inComments (brace : Brace) := (commentBytes source).count brace.byte
    s.depth + braces line
      = (tokens .left + inComments .left : Nat) - (tokens .right + inComments .right : Nat) := by
  intro source tokens inComments
  have ending : braces "\n" = 0 := by decide
  calc s.depth + braces line
      = braces (collected (lines ++ [line])) := by
        rw [collected_append, braces_append, braces_append, ending, collects.holds.2, Int.add_zero]
    _ = _ := by
        rw [← count_char .left, ← count_char .right]
        rfl

/-- A session waits for more while the braces of its text, tokens and those in comments, leave a block open;
    else the text comes back. With as many left as right braces in comments, the tokens alone decide. -/
theorem feed_waits_iff {lines : List String} {s : Session} (collects : Collects lines s) (line : String) :
    let text := collected (lines ++ [line])
    let source := Text.Utf8.encode text.toList
    let tokens (brace : Brace) := (tokenize source).1.countP (·.kind = brace.kind)
    let inComments (brace : Brace) := (commentBytes source).count brace.byte
    let waits := tokens .right + inComments .right < tokens .left + inComments .left
    (s.feed line).1 = (if waits then none else some text) ∧ ((s.feed line).2.pending ↔ waits) ∧
      (inComments .left = inComments .right →
        ((s.feed line).1 = none ↔ tokens .right < tokens .left) ∧
        ((s.feed line).2.pending ↔ tokens .right < tokens .left)) := by
  intro text source tokens inComments waits
  have whole : s.buffer ++ line ++ "\n" = text := by rw [collects.holds.1, ← collected_append]
  -- The depth does not tell braces of tokens from braces in comments.
  have depth : s.depth + braces line
      = (tokens .left + inComments .left : Nat) - (tokens .right + inComments .right : Nat) :=
    collects.depth_eq line
  have open_iff : 0 < s.depth + braces line ↔ waits := by
    simp only [waits]
    omega
  have balanced : inComments .left = inComments .right → (waits ↔ tokens .right < tokens .left) := by
    simp only [waits]
    omega
  rcases feed_cases s line with ⟨opened, is⟩ | ⟨closed, is⟩
  · have waiting := open_iff.1 opened
    rw [is, if_pos waiting]
    refine ⟨rfl, by simp [pending, opened, waiting], fun same => ?_⟩
    simp [pending, opened, (balanced same).1 waiting]
  · have done : ¬ waits := mt open_iff.2 (Int.not_lt.2 closed)
    rw [is, if_neg done, whole]
    refine ⟨rfl, by simp [pending, reset, done], fun same => ?_⟩
    simpa [pending, reset] using mt (balanced same).2 done

def fresh : Session := { policy := {}, machine := Interpreter.start [] }

def blockLine : String := "if (on) \x7b // \x7b \x7d"

theorem feed_waits_iff_blockLine :
    Collects [blockLine] (fresh.feed blockLine).2 ∧
      ((fresh.feed blockLine).2.feed "on").1 = none ∧
      ((fresh.feed blockLine).2.feed "\x7d").1 = some (collected [blockLine, "\x7d"]) := by
  have collects : Collects ([] ++ [blockLine]) (fresh.feed blockLine).2 :=
    .withheld (.start {} (Interpreter.start [])) (by decide)
  refine ⟨collects, ?_, ?_⟩
  · exact (feed_waits_iff collects "on").1.trans (if_pos (by decide +kernel))
  · exact (feed_waits_iff collects "\x7d").1.trans (if_neg (by decide +kernel))

/-- A brace in a comment is counted: a session waits behind a comment with a left brace, where no block is
    open, and does not wait in an open block behind a comment with a right brace. -/
theorem feed_counts_comments :
    let tokens (line : String) (kind : Kind) :=
      (tokenize (Text.Utf8.encode (collected [line]).toList)).1.countP (·.kind = kind)
    ((fresh.feed "// \x7b").1 = none ∧ (fresh.feed "// \x7b").2.pending = true ∧
      ¬ tokens "// \x7b" .rightBrace < tokens "// \x7b" .leftBrace) ∧
    ((fresh.feed "if (on) \x7b // \x7d").1 ≠ none ∧ (fresh.feed "if (on) \x7b // \x7d").2.pending = false ∧
      tokens "if (on) \x7b // \x7d" .rightBrace < tokens "if (on) \x7b // \x7d" .leftBrace) := by
  decide +kernel

/-! ## What a session keeps and gives back -/

inductive Act
  | feed (line : String)
  | reset
  | run (chunk : String)
  deriving DecidableEq

def Act.line? : Act → Option String
  | .feed line => some line
  | .reset | .run _ => none

def perform (s : Session) : Act → Option String × Session
  | .feed line => s.feed line
  | .reset => (none, s.reset)
  | .run chunk => (none, (s.run chunk).2)

def performAll (s : Session) : List Act → List String × Session
  | [] => ([], s)
  | act :: rest =>
    let later := (s.perform act).2.performAll rest
    ((s.perform act).1.toList ++ later.1, later.2)

/-- A session keeps text only while a block is open in it, and counts the braces of what it keeps. -/
structure Tidy (s : Session) : Prop where
  pending : s.buffer ≠ "" ↔ s.pending = true
  nonneg : 0 ≤ s.depth
  depth : s.depth = (s.buffer.toList.count '\x7b' : Int) - s.buffer.toList.count '\x7d'

theorem tidy_of_empty {s : Session} (empty : s.buffer = "") (zero : s.depth = 0) : s.Tidy := by
  refine ⟨?_, ?_, ?_⟩
  · simp [pending, empty, zero]
  · omega
  · simp [empty, zero]

theorem Tidy.perform {s : Session} (tidy : s.Tidy) (act : Act) : (s.perform act).2.Tidy := by
  cases act with
  | reset => exact tidy_of_empty rfl rfl
  | run chunk =>
    obtain ⟨buffer, depth⟩ := run_keeps s chunk
    obtain ⟨waits, nonneg, count⟩ := tidy
    refine ⟨?_, ?_, ?_⟩
    · simpa only [Session.perform, Session.pending, buffer, depth] using waits
    · rwa [Session.perform, depth]
    · rwa [Session.perform, buffer, depth]
  | feed line =>
    rcases feed_cases s line with ⟨opened, is⟩ | ⟨_, is⟩
    · have ending : braces "\n" = 0 := by decide
      have count : s.depth + braces line = braces (s.buffer ++ line ++ "\n") := by
        rw [braces_append, braces_append, ending, Int.add_zero]
        exact congrArg (· + braces line) tidy.depth
      rw [Session.perform, is]
      exact ⟨by simp [Session.pending, opened], Int.le_of_lt opened, count⟩
    · rw [Session.perform, is]
      exact tidy_of_empty rfl rfl

theorem Tidy.performAll {s : Session} (tidy : s.Tidy) (acts : List Act) : (s.performAll acts).2.Tidy := by
  induction acts generalizing s with
  | nil => exact tidy
  | cons act rest ih => exact ih (tidy.perform act)

theorem collected_eq_join (lines : List String) : collected lines = String.join (lines.map (· ++ "\n")) := by
  simp only [collected, String.join_eq_foldl, List.foldl_map, String.append_assoc]

/-- An act other than a reset gives back or keeps all that there was, with the line that it adds at the end. -/
theorem perform_text (s : Session) {act : Act} (keeps : act ≠ .reset) :
    String.join (s.perform act).1.toList ++ (s.perform act).2.buffer =
      s.buffer ++ collected act.line?.toList := by
  cases act with
  | reset => exact absurd rfl keeps
  | run chunk => simp [perform, Act.line?, (run_keeps s chunk).1, collected]
  | feed line =>
    rcases feed_cases s line with ⟨_, is⟩ | ⟨_, is⟩
    · simp [perform, is, Act.line?, collected, String.append_assoc]
    · simp [perform, is, Act.line?, collected, reset, String.append_assoc]

theorem performAll_text (s : Session) {acts : List Act} (keep : ∀ act ∈ acts, act ≠ .reset) :
    String.join (s.performAll acts).1 ++ (s.performAll acts).2.buffer =
      s.buffer ++ collected (acts.filterMap Act.line?) := by
  induction acts generalizing s with
  | nil => simp [performAll, collected]
  | cons act rest ih =>
    obtain ⟨first, others⟩ := List.forall_mem_cons.1 keep
    have lines : (act :: rest).filterMap Act.line? = act.line?.toList ++ rest.filterMap Act.line? := by
      cases act <;> rfl
    have later := ih (s.perform act).2 others
    calc String.join (s.performAll (act :: rest)).1 ++ (s.performAll (act :: rest)).2.buffer
        = String.join (s.perform act).1.toList ++ (String.join ((s.perform act).2.performAll rest).1 ++
            ((s.perform act).2.performAll rest).2.buffer) := by
          rw [performAll, String.join_append, String.append_assoc]
      _ = s.buffer ++ collected act.line?.toList ++ collected (rest.filterMap Act.line?) := by
          rw [later, ← String.append_assoc, perform_text s first]
      _ = s.buffer ++ collected ((act :: rest).filterMap Act.line?) := by
          rw [lines, collected_eq_join, collected_eq_join, collected_eq_join, List.map_append, String.join_append,
            String.append_assoc]

/-- Along any history of a session, it keeps text exactly while it waits for more, its count is never negative, and it
    is the count of the braces in what it keeps.  As long as it is not reset, what comes back and what it keeps in the
    end are all the lines that were fed, in order and each of them ended. -/
theorem session_conserves (policy : Policy) (machine : Machine) (before acts : List Act) {s : Session}
    (history : (performAll { policy, machine } before).2 = s) :
    ((s.buffer ≠ "" ↔ s.pending = true) ∧ 0 ≤ s.depth ∧
      s.depth = (s.buffer.toList.count '\x7b' : Int) - s.buffer.toList.count '\x7d') ∧
    ((∀ act ∈ acts, act ≠ .reset) →
      String.join (s.performAll acts).1 ++ (s.performAll acts).2.buffer =
        s.buffer ++ collected (acts.filterMap Act.line?)) := by
  have tidy : s.Tidy := history ▸ (tidy_of_empty rfl rfl : Tidy { policy, machine }).performAll before
  exact ⟨⟨tidy.pending, tidy.nonneg, tidy.depth⟩, s.performAll_text⟩

def surplusActs : List Act :=
  [.feed "if (on) \x7b", .feed "\x7d \x7d \x7d", .run "", .feed "while (on) \x7b", .feed "\x7d \x7b \x7b"]

theorem session_conserves_surplusActs :
    (∀ act ∈ surplusActs, act ≠ .reset) ∧ (fresh.performAll surplusActs).2.depth = 2 ∧
      (fresh.performAll surplusActs).1.length = 1 ∧
      String.join (fresh.performAll surplusActs).1 ++ (fresh.performAll surplusActs).2.buffer =
        collected ["if (on) \x7b", "\x7d \x7d \x7d", "while (on) \x7b", "\x7d \x7b \x7b"] := by
  have keep : ∀ act ∈ surplusActs, act ≠ .reset := by decide
  obtain ⟨-, conserved⟩ := session_conserves {} (Interpreter.start []) [] surplusActs rfl
  exact ⟨keep, by decide +kernel, by decide +kernel, (conserved keep).trans (by decide +kernel)⟩

end Session

end ClassScript
