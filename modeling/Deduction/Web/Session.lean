/-
The web front end: one proof, shared by all clients, and four kinds of
requests.

A request comes with plain values that nobody has checked. Each one is
answered with messages, and most bad requests with an error message; a
few end in a fault instead, which the server reports in its own way. A
request that ends with an error message leaves the proof as it was, and
so does one that ends in a fault, with one exception. What has to be
shown takes room on the stack (`Stack`). A handler changes the proof
first, then writes to the log, and sends the tree at last; where there is
no room for the second or the third it breaks off, and the proof stays
changed (`Reply.cutOff`).

The handlers take the stack as their last argument. Without it there is
room for everything.
-/
import Deduction.Formula.Read
import Deduction.Proof.View

namespace Deduction.Web

-- ============================================================ messages

/-- What is sent to the clients. -/
inductive Message where
  /-- The proof, and whether it is finished. -/
  | tree (outline : Outline) (proved : Bool)
  /-- The proof has just been finished. -/
  | done
  | error (text : String)
  /-- There is no goal, and why. -/
  | noGoal (text : String)
  deriving Repr

namespace Message

/-- The name under which a message is sent. -/
def name : Message → String
  | .tree _ _ => "update_tree"
  | .done => "done"
  | .error _ => "error"
  | .noGoal _ => "parse_error"

/-- A text as the content of a message. -/
def note (text : String) : List Value :=
  [.object [("msg", .text text)]]

/-- What is sent with a message. -/
def contents : Message → List Value
  | .tree outline proved =>
    [.object [("tree", outline.toValue), ("proved", .bool proved)]]
  | .done => []
  | .error text => note text
  | .noGoal text => note text

end Message

/-- What ends a request without an answer. -/
inductive Fault where
  /-- The request has too few or too many arguments. -/
  | arguments
  /-- The goal is not a text. -/
  | notText
  /-- The goal cannot be read, and not for a reason to be shown. -/
  | unreadable (cause : ReadError)
  /-- The number of the hypothesis is not finite. -/
  | index (cause : Value.IntegerError)
  /-- There is no room on the stack for what is to be shown. -/
  | stack
  deriving DecidableEq, Repr

-- =============================================================== stack

/-- What there is room for on the stack of a handler. Comparing formulas
takes less than showing them, so there is always room for that. -/
structure Stack where
  /-- Whether a record that shows the state can be written. -/
  records : State Atom → Bool
  /-- Whether the tree can be sent, with the news whether it is finished. -/
  sends : ProofTree Atom → Bool

namespace Stack

/-- Room for everything. -/
def ample : Stack := ⟨fun _ => true, fun _ => true⟩

end Stack

-- ============================================================= session

/-- The state of the front end. -/
structure Session where
  /-- The proof, if there is a goal. -/
  proof : Option (ProofTree Atom)
  deriving Repr

/-- The outcome of a request. -/
structure Reply where
  session : Session
  messages : List Message
  log : List Log.Record
  fault : Option Fault
  deriving Repr

namespace Reply

/-- An answer that changes nothing. -/
def say (session : Session) (message : Message) : Reply :=
  ⟨session, [message], [], none⟩

/-- An error message. -/
def refuse (session : Session) (text : String) : Reply :=
  say session (.error text)

/-- A fault, which changes nothing. -/
def fail (session : Session) (fault : Fault) : Reply :=
  ⟨session, [], [], some fault⟩

/-- The end of a handler that has no room to go on. What it has done to
the proof is done, but nothing is sent. -/
def cutOff (session : Session) : Reply := fail session .stack

/-- The proof as it now is, and what else is to be sent behind it. -/
def present (t : ProofTree Atom) (stack : Stack := .ample)
    (rest : List Message := []) : Reply :=
  if stack.sends t then
    ⟨⟨some t⟩, .tree t.outline t.proved :: rest, [], none⟩
  else cutOff ⟨some t⟩

/-- The same reply after some records. -/
def logging (r : Reply) (records : List Log.Record) : Reply :=
  { r with log := records ++ r.log }

/-- The same reply after some records that show a state. -/
def recording (r : Reply) (stack : Stack) (state : State Atom)
    (records : List Log.Record) : Reply :=
  if records.isEmpty || stack.records state then r.logging records
  else cutOff r.session

@[simp] theorem present_ample (t : ProofTree Atom) (rest : List Message) :
    present t .ample rest
      = ⟨⟨some t⟩, .tree t.outline t.proved :: rest, [], none⟩ :=
  rfl

@[simp] theorem recording_ample (r : Reply) (state : State Atom)
    (records : List Log.Record) :
    r.recording .ample state records = r.logging records := by
  have hroom : Stack.ample.records state = true := rfl
  rw [recording, hroom, Bool.or_true, if_pos rfl]

end Reply

namespace Session

/-- The front end before the first goal. -/
def empty : Session := ⟨none⟩

/-- The proof of a new goal, or the reason why the goal is refused, with
the log of reading it. -/
def readGoal (limit : Nat) (text : Value) :
    Except Fault (List Log.Record × Except String (ProofTree Atom)) :=
  match Source.ofValue? text with
  | none => .error .notText
  | some source =>
    let log := Goal.readLog limit source
    match Goal.read limit source.chars with
    | .ok goal => .ok (log, .ok (.ofGoal goal))
    | .error e =>
      if e.isReported then .ok (log, .error e.message)
      else .error (.unreadable e)

/-- What is recorded of a new proof. -/
def goalLog (t : ProofTree Atom) : List Log.Record :=
  match t.state with
  | .closed => []
  | .table s => [⟨.web, .info, "new goal " ++ s.goal.text⟩]

/-- Sets the goal. A goal that is refused leaves no proof. -/
def setGoal (s : Session) (limit : Nat) (text : Value)
    (stack : Stack := .ample) : Reply :=
  match readGoal limit text with
  | .error fault => .fail s fault
  | .ok (log, .ok t) =>
    ((Reply.present t stack).recording stack t.state (goalLog t)).logging log
  | .ok (log, .error reason) => (Reply.say empty (.noGoal reason)).logging log

/-- The node that a request is about. -/
def locate (s : Session) (data : Value) :
    Except Reply (List (String × Value) × ProofTree Atom × Path) :=
  match data with
  | .object fields =>
    match s.proof with
    | none => .error (.refuse s "No goal to prove.")
    | some t =>
      match t.find ((Value.lookup "path" fields).getD (.array [])) with
      | .ok path => .ok (fields, t, path)
      | .error _ => .error (.refuse s "No such proof step.")
  | _ => .error (.refuse s "Invalid request.")

-- ============================================================ requests

/-- A new goal. -/
def onSetGoal (s : Session) (limit : Nat) (data : Value)
    (stack : Stack := .ample) : Reply :=
  match data with
  | .object fields =>
    s.setGoal limit ((Value.lookup "text" fields).getD (.text "")) stack
  | _ => .refuse s "Invalid request."

/-- The proof as it is. -/
def onFetchTree (s : Session) (stack : Stack := .ample) : Reply :=
  match s.proof with
  | none => .say s (.noGoal "No goal.")
  | some t => .present t stack

/-- The rule that a request asks for. The number is read first, also for
a rule that takes none; only an infinite one is a fault. -/
def requestedRule (fields : List (String × Value)) :
    Except (Option Fault) Rule :=
  let name := (Value.lookup "rule" fields).getD .null
  match ((Value.lookup "index" fields).getD Rule.defaultIndex).toInteger with
  | .error .infinite => .error (some (.index .infinite))
  | .error _ => .error none
  | .ok n =>
    match Rule.make name (.int n) with
    | .error _ => .error none
    | .ok rule => .ok rule

/-- A rule at a node. -/
def onApplyRule (s : Session) (data : Value) (stack : Stack := .ample) :
    Reply :=
  match s.locate data with
  | .error reply => reply
  | .ok (fields, t, path) =>
    match requestedRule fields with
    | .error (some fault) => .fail s fault
    | .error none =>
      .refuse s ("Invalid rule "
        ++ ((Value.lookup "rule" fields).getD .null).display ++ ".")
    | .ok rule =>
      match t.get? path with
      | none => .refuse s "No such proof step."
      | some found =>
        match found.accept? rule with
        | none =>
          (Reply.refuse s ("Rule " ++ rule.text ++ " does not apply.")).recording
            stack found.state (found.acceptLog rule)
        | some new =>
          let t := t.replace path new
          (Reply.present t stack (if t.proved then [.done] else [])).recording
            stack found.state
            [⟨.web, .info,
              "applied " ++ rule.text ++ " to " ++ found.state.text⟩]

/-- Taking back what is below a node. -/
def onUndo (s : Session) (data : Value) (stack : Stack := .ample) : Reply :=
  match s.locate data with
  | .error reply => reply
  | .ok (_, t, path) =>
    match t.stepAt? path .undo with
    | none => .refuse s "No such proof step."
    | some (_, t) => .present t stack

/-- A request by name. Requests of other names are ignored. -/
def handle (s : Session) (limit : Nat) (name : String)
    (arguments : List Value) (stack : Stack := .ample) : Reply :=
  match name, arguments with
  | "set_goal", [data] => s.onSetGoal limit data stack
  | "apply_rule", [data] => s.onApplyRule data stack
  | "undo", [data] => s.onUndo data stack
  | "fetch_tree", [] => s.onFetchTree stack
  | "fetch_tree", [_] => s.onFetchTree stack
  | "set_goal", _ | "apply_rule", _ | "undo", _ | "fetch_tree", _ =>
    .fail s .arguments
  | _, _ => ⟨s, [], [], none⟩

/-- The replies to a list of requests, one after the other. -/
def handleAll (limit : Nat) (s : Session)
    (requests : List (String × List Value)) (stack : Stack := .ample) :
    List Reply :=
  match requests with
  | [] => []
  | (name, arguments) :: requests =>
    let reply := s.handle limit name arguments stack
    reply :: handleAll limit reply.session requests stack

end Session

end Deduction.Web
