/-
Which requests are answered, and which end in a fault.

A request may hold any value in any place, and nearly all of them are
answered. Taking back a step always is. A rule is not if the number of its
hypothesis is infinite, and there is a node to apply it to: the number has
no whole part, and that is not taken for a mistake of the client. A goal
is not if it is no text, or a legible text with a numeral that is too
long. Every other request is answered once, with the tree as it then is or
with the reason why there is none. A request without an answer changes
nothing.

Here there is room for everything on the stack. What comes of a lack of
room is told where all requests are treated, in `Requests`.
-/
import Deduction.Proofs.Oversize
import Deduction.Proofs.Requests

namespace Deduction

/-- Only infinite numbers have no whole part for that reason. -/
theorem Value.toInteger_eq_infinite_iff {v : Value} :
    v.toInteger = .error .infinite
      ↔ ∃ negative, v = .float (.infinite negative) := by
  constructor
  · intro h
    cases v with
    | float x =>
        cases x with
        | finite => cases h
        | infinite negative => exact ⟨negative, rfl⟩
    | text s =>
        unfold toInteger at h
        dsimp only at h
        split at h <;> cases h
    | _ => cases h
  · rintro ⟨negative, rfl⟩
    rfl

namespace Web.Session

variable {s : Session} {data : Value} {fields : List (String × Value)}

-- ================================================================= rules

/-- The request names a node of the proof, and gives an infinite number. -/
def Overflows (s : Session) (data : Value) : Prop :=
  ∃ fields t path negative, data = .object fields ∧ s.proof = some t
    ∧ t.find (pathField fields) = .ok path
    ∧ Value.lookup "index" fields = some (.float (.infinite negative))

/-- The request asks for a rule that is accepted, and this is the tree
after it. -/
def Applies (s : Session) (data : Value) (t' : ProofTree Atom) : Prop :=
  ∃ fields, data = .object fields ∧ s.Accepts fields t'

/-- The request names a node of the proof, and this is the tree after what
is below the node has been taken back. -/
def Undoes (s : Session) (data : Value) (t' : ProofTree Atom) : Prop :=
  ∃ fields t path accepted, data = .object fields ∧ s.proof = some t
    ∧ t.find (pathField fields) = .ok path
    ∧ t.stepAt? path .undo = some (accepted, t')

/-- A request that leads to another tree is answered with it, and with
some messages behind it; any other request is answered with one error
message, and changes nothing. -/
def Answered (s : Session) (leads : ProofTree Atom → Prop)
    (after : ProofTree Atom → List Message) (r : Reply) : Prop :=
  r.fault = none
    ∧ ((∃ t', leads t' ∧ r.session = ⟨some t'⟩
        ∧ r.messages = .tree t'.outline t'.proved :: after t')
      ∨ (¬ ∃ t', leads t') ∧ r.session = s
        ∧ ∃ text, r.messages = [.error text])

/-- Asking for a rule ends in a fault just if its number is infinite; every
other bad number or name is a mistake of the client. -/
theorem requestedRule_fault_iff {fault : Fault} :
    requestedRule fields = .error (some fault)
      ↔ fault = .index .infinite
        ∧ ∃ negative, Value.lookup "index" fields
            = some (.float (.infinite negative)) := by
  constructor
  · intro h
    unfold requestedRule at h
    dsimp only at h
    split at h
    next hindex =>
      obtain ⟨negative, hfloat⟩ := Value.toInteger_eq_infinite_iff.1 hindex
      cases hlookup : Value.lookup "index" fields with
      | none =>
          rw [hlookup] at hfloat
          cases hfloat
      | some v =>
          rw [hlookup] at hfloat
          cases h
          exact ⟨rfl, negative, congrArg some hfloat⟩
    next => cases h
    next =>
      split at h
      next => cases h
      next => cases h
  · rintro ⟨rfl, negative, hlookup⟩
    unfold requestedRule
    rw [hlookup]
    rfl

theorem answered_refused {leads : ProofTree Atom → Prop}
    {after : ProofTree Atom → List Message} {text : String}
    {log : List Log.Record} (h : ¬ ∃ t', leads t') :
    Answered s leads after ⟨s, [.error text], log, none⟩ :=
  ⟨rfl, Or.inr ⟨h, rfl, text, rfl⟩⟩

/-- Taking back a step is always answered. -/
theorem answered_onUndo (s : Session) (data : Value) :
    Answered s (s.Undoes data) (fun _ => []) (s.onUndo data) := by
  unfold onUndo
  rcases s.locate_cases data with
    ⟨text, hlocate⟩ | ⟨fields, t, path, rfl, hproof, hfind, hlocate⟩
  · rw [hlocate]
    refine answered_refused ?_
    rintro ⟨t', fields, t, path, accepted, rfl, hproof, hfind, -⟩
    rw [locate_found hproof hfind] at hlocate
    cases hlocate
  · rw [hlocate]
    dsimp only
    obtain ⟨found, hget⟩ := ProofTree.get?_of_find hfind
    cases hstep : t.stepAt? path .undo with
    | none =>
        unfold ProofTree.stepAt? at hstep
        rw [hget] at hstep
        cases hstep
    | some result =>
        obtain ⟨accepted, t'⟩ := result
        refine ⟨rfl, Or.inl ⟨t', ?_, rfl, rfl⟩⟩
        exact ⟨fields, t, path, accepted, rfl, hproof, hfind, hstep⟩

/-- A rule is answered if its number is finite, or if there is no node at
which it is asked for. -/
theorem answered_onApplyRule (h : ¬ s.Overflows data) :
    Answered s (s.Applies data) (fun t' => if t'.proved then [.done] else [])
      (s.onApplyRule data) := by
  by_cases hleads : ∃ t', s.Applies data t'
  · obtain ⟨t', fields, rfl, haccepts⟩ := hleads
    obtain ⟨log, hreply⟩ := handle_of_accepts 0 haccepts
    rw [show s.onApplyRule (.object fields) = _ from hreply]
    exact ⟨rfl, Or.inl ⟨t', ⟨fields, rfl, haccepts⟩, rfl, rfl⟩⟩
  · unfold onApplyRule
    rcases s.locate_cases data with
      ⟨text, hlocate⟩ | ⟨fields, t, path, rfl, hproof, hfind, hlocate⟩
    · rw [hlocate]
      exact answered_refused hleads
    · rw [hlocate]
      dsimp only
      split
      next fault hrule =>
        obtain ⟨-, negative, hlookup⟩ := requestedRule_fault_iff.1 hrule
        exact absurd ⟨fields, t, path, negative, rfl, hproof, hfind, hlookup⟩ h
      next => exact answered_refused hleads
      next rule hrule =>
        obtain ⟨found, hget⟩ := ProofTree.get?_of_find hfind
        rw [hget]
        dsimp only
        split
        next =>
          rw [Reply.recording_ample]
          exact answered_refused hleads
        next new hnew =>
          refine absurd ⟨t.replace path new, fields, rfl, t, path, rule, hproof,
            hfind, hrule, ?_⟩ hleads
          exact ProofTree.stepAt?_accepted.2 ⟨found, new, hget, hnew, rfl⟩

/-- A rule with an infinite number is a fault. -/
theorem onApplyRule_of_overflows (h : s.Overflows data) :
    s.onApplyRule data = .fail s (.index .infinite) := by
  obtain ⟨fields, t, path, negative, rfl, hproof, hfind, hlookup⟩ := h
  have hrule := requestedRule_fault_iff.2 ⟨rfl, negative, hlookup⟩
  unfold onApplyRule
  rw [locate_found hproof hfind]
  dsimp only
  rw [hrule]

/-- Requests for a rule, and requests to take one back, are answered with
one error message or with the tree after the step, and behind that with
the news that the proof is finished, if a rule has finished it. The one
exception is an infinite number for the hypothesis: then nothing is sent
and nothing has changed. -/
theorem rule_requests_answered (s : Session) (data : Value) :
    Answered s (s.Undoes data) (fun _ => []) (s.onUndo data)
    ∧ (¬ s.Overflows data →
        Answered s (s.Applies data)
          (fun t' => if t'.proved then [.done] else []) (s.onApplyRule data))
    ∧ (s.Overflows data →
        s.onApplyRule data = .fail s (.index .infinite)) :=
  ⟨answered_onUndo s data, answered_onApplyRule, onApplyRule_of_overflows⟩

/-- The number `1e400` is infinite, and there is no answer. -/
theorem overflow_not_answered :
    (Session.mk (some (.ofGoal Goal.identity))).onApplyRule
        (.object [("path", .array []), ("rule", .text "ImplIntro"),
          ("index", .float (.ofDecimal false 1 400))])
      = .fail ⟨some (.ofGoal Goal.identity)⟩ (.index .infinite) := by
  rfl

-- ================================================================= goals

/-- The value is not read as a goal, and there is no reason to be shown:
it is no text, or a legible one with a numeral of too many digits. -/
def Unreadable : Value → Prop
  | .text text => Goal.Oversize text
  | .array [] => False
  | .object [] => False
  | _ => True

/-- What is read from a value that is not unreadable: the goal that is
parsed from its characters, or a reason why there is none. -/
inductive Readable (limit : Nat) (source : Source) :
    Except String (ProofTree Atom) → Prop where
  | goal {f : Goal} : Goal.parse limit source.chars = .ok f →
      Readable limit source (.ok (.ofGoal f))
  | reason {e : ReadError} : Goal.read limit source.chars = .error e →
      e.message ≠ "" → Readable limit source (.error e.message)

/-- A value is readable if it has characters, and no numeral of too many
digits among them. -/
theorem unreadable_iff {v : Value} :
    Unreadable v ↔ ∀ source, Source.ofValue? v = some source →
      Goal.Oversize source.chars := by
  have hempty : ¬ Goal.Oversize "" := fun h => Token.not_hasOversize_nil h.2
  constructor
  · intro h source hsource
    unfold Source.ofValue? at hsource
    split at hsource
    next =>
      cases hsource
      exact h
    next => exact absurd h id
    next => exact absurd h id
    next => cases hsource
  · intro h
    unfold Unreadable
    split
    next text => exact h (.ofText text) rfl
    next => exact hempty (h _ rfl)
    next => exact hempty (h _ rfl)
    next => trivial

/-- An error that is not for the client is a fault. -/
theorem readGoal_of_unreported {limit : Nat} {v : Value} {source : Source}
    {e : ReadError} (hsource : Source.ofValue? v = some source)
    (hread : Goal.read limit source.chars = .error e)
    (h : e.isReported = false) :
    readGoal limit v = .error (.unreadable e) := by
  unfold readGoal
  rw [hsource]
  dsimp only
  rw [hread]
  dsimp only
  rw [h]
  rfl

/-- Unreadable values cannot be read, whatever the limit. -/
theorem readGoal_of_unreadable (limit : Nat) {v : Value}
    (h : Unreadable v) : ∃ fault, readGoal limit v = .error fault := by
  cases hsource : Source.ofValue? v with
  | none =>
      refine ⟨.notText, ?_⟩
      unfold readGoal
      rw [hsource]
  | some source =>
      obtain ⟨n, -, hread⟩ :=
        Goal.read_of_oversize limit (unreadable_iff.1 h source hsource)
      exact ⟨_, readGoal_of_unreported hsource hread rfl⟩

/-- All other values can: they give a goal, or a reason that is not
empty. -/
theorem readable_readGoal (limit : Nat) {v : Value} (h : ¬ Unreadable v) :
    ∃ source log outcome, Source.ofValue? v = some source
      ∧ readGoal limit v = .ok (log, outcome)
      ∧ Readable limit source outcome := by
  rw [unreadable_iff] at h
  simp only [not_forall] at h
  obtain ⟨source, hsource, hsize⟩ := h
  unfold readGoal
  rw [hsource]
  dsimp only
  cases hread : Goal.read limit source.chars with
  | ok f =>
      refine ⟨source, _, _, rfl, rfl, .goal ?_⟩
      unfold Goal.read at hread
      split at hread
      next => cases hread
      next g hparse =>
        split at hread
        next => cases hread
        next =>
          cases hread
          exact hparse
  | error e =>
      have hreported := Goal.isReported_of_read hsize hread
      dsimp only
      rw [if_pos hreported]
      exact ⟨source, _, _, rfl, rfl,
        .reason hread (ReadError.message_ne_empty hreported)⟩

/-- The answer to a goal that has been read: the tree at its start, or the
reason why there is none. -/
def answer (log : List Log.Record) : Except String (ProofTree Atom) → Reply
  | .ok t =>
    ⟨⟨some t⟩, [.tree t.outline t.proved], log ++ goalLog t, none⟩
  | .error reason => ⟨⟨none⟩, [.noGoal reason], log, none⟩

/-- A value that can be read is answered, whatever the session. -/
theorem setGoal_of_readGoal {limit : Nat} {v : Value} {log : List Log.Record}
    {outcome : Except String (ProofTree Atom)}
    (h : readGoal limit v = .ok (log, outcome)) (s : Session) :
    s.setGoal limit v = answer log outcome := by
  unfold setGoal
  rw [h]
  cases outcome with
  | ok t => simp [Reply.logging, answer]
  | error reason => simp [Reply.say, Reply.logging, answer, empty]

/-- Reading a goal gives the goal that is parsed, or a reason that is not
empty, but for the values that are unreadable. So a request for a goal is
answered with one message, the tree, the reason, or that it is no request;
but not if the value is unreadable. -/
theorem goal_requests_answered (limit : Nat) :
    (∀ v, ¬ Unreadable v → ∃ source log outcome,
      Source.ofValue? v = some source
        ∧ readGoal limit v = .ok (log, outcome)
        ∧ Readable limit source outcome)
    ∧ (∀ v, Unreadable v → ∃ fault, readGoal limit v = .error fault)
    ∧ ∀ s : Session,
        (∀ fields, ¬ Unreadable (textField fields) →
          ∃ source log outcome,
            Source.ofValue? (textField fields) = some source
            ∧ Readable limit source outcome
            ∧ s.onSetGoal limit (.object fields) = answer log outcome)
        ∧ (∀ fields, Unreadable (textField fields) →
          ∃ fault, s.onSetGoal limit (.object fields) = .fail s fault)
        ∧ ∀ data, (∀ fields, data ≠ .object fields) →
          ∃ text, s.onSetGoal limit data = .refuse s text := by
  refine ⟨fun v => readable_readGoal limit,
    fun v => readGoal_of_unreadable limit, fun s => ⟨?_, ?_, ?_⟩⟩
  · intro fields h
    obtain ⟨source, log, outcome, hsource, hgoal, hreadable⟩ :=
      readable_readGoal limit h
    exact ⟨source, log, outcome, hsource, hreadable,
      setGoal_of_readGoal hgoal s⟩
  · intro fields h
    obtain ⟨fault, hfault⟩ := readGoal_of_unreadable limit h
    refine ⟨fault, ?_⟩
    show s.setGoal limit (textField fields) = _
    unfold setGoal
    rw [hfault]
  · intro data h
    refine ⟨"Invalid request.", ?_⟩
    unfold onSetGoal
    split
    next fields => exact absurd rfl (h fields)
    next => rfl

/-- A numeral with one digit more than are read. -/
def longNumeral : List Char :=
  List.replicate 4301 '1'

/-- A numeral of one digit too many is not read, and that is not
reported. -/
theorem longNumeral_not_read :
    readGoal Goal.depthLimit (.text (String.ofList longNumeral))
      = .error (.unreadable (.numeralTooLong 4301)) := by
  have hlength : longNumeral.length = 4301 := by
    rw [longNumeral, List.length_replicate]
  have hdigits : Token.isDigits longNumeral = true := by
    rw [Token.isDigits_iff, longNumeral]
    refine ⟨List.replicate_succ_ne_nil, fun c hc => ?_⟩
    rw [List.eq_of_mem_replicate hc]
    rfl
  have hlong : Numeral.maxDigits < longNumeral.length := by
    rw [hlength, Numeral.maxDigits]
    decide
  have hread := Goal.read_numeral Goal.depthLimit hdigits hlong
  rw [hlength] at hread
  exact readGoal_of_unreported rfl hread rfl

end Web.Session

end Deduction
