/-
The page and the screen show the same proof.

A page is sent the proof as a dictionary in which the dictionaries of the
children are nested. A screen is given lines. They come from separate
recursions: one carries the path down and numbers the children as it
nests, the other lists the nodes with their paths.

Whoever has only the dictionary can write the lines. Flattened with
parents before children (`Value.dictionaries`) it gives the dictionaries
of the nodes in the order of the listing (`dictionaries_outline`), and
each of them says what its line is (`Dictionary.line?`). From the
dictionary it can also be told whether the proof is finished: it is, if
every dictionary without children is closed.
-/
import Deduction.Proofs.Soundness
import Deduction.Web.Session

namespace Deduction

variable {α : Type}

-- ========================================================= dictionaries

/-- The named values of an object. -/
abbrev Dictionary := List (String × Value)

mutual

/-- The dictionaries nested in a value as children, each before its own
children and these in order. -/
def Value.dictionaries : Value → List Dictionary
  | .object fields => fields :: childDictionaries fields
  | _ => []

/-- Those below the children that the fields name. -/
def childDictionaries : List (String × Value) → List Dictionary
  | [] => []
  | (name, .array vs) :: fields =>
    if name = "children" then elementDictionaries vs
    else childDictionaries fields
  | (_, _) :: fields => childDictionaries fields

/-- Those in the elements of an array, one after the other. -/
def elementDictionaries : List Value → List Dictionary
  | [] => []
  | v :: vs => v.dictionaries ++ elementDictionaries vs

end

namespace Value

def text? : Value → Option String
  | .text s => some s
  | _ => none

/-- What the elements of an array stand for, if all of them do. -/
def elementsAs? {β : Type} (read : Value → Option β) :
    Value → Option (List β)
  | .array vs => vs.mapM read
  | _ => none

end Value

namespace Dictionary

/-- The text of hypotheses: numbered from zero, with a space behind unless
there are none. -/
def hypotheses (context : List String) : String :=
  if context.isEmpty then ""
  else
    ", ".intercalate (context.mapIdx fun i h => "H" ++ toString i ++ ": " ++ h)
      ++ " "

/-- The text of the state: a dash for a closed branch, or the hypotheses
and the goal. -/
def state? (d : Dictionary) : Option String :=
  match Value.lookup "closed" d with
  | some (.bool true) => some "----"
  | some (.bool false) => do
    let context ← (Value.lookup "context" d).bind (·.elementsAs? Value.text?)
    let goal ← (Value.lookup "goal" d).bind Value.text?
    return hypotheses context ++ "|- " ++ goal
  | _ => none

/-- The rule in brackets, if it is not null. -/
def rule? (d : Dictionary) : Option String :=
  match Value.lookup "rule" d with
  | some .null => some ""
  | some (.text rule) => some (" [" ++ rule ++ "]")
  | _ => none

/-- The line that a dictionary stands for, with its path: two spaces for
each step away from the root, the state, and the rule. -/
def line? (d : Dictionary) : Option (Path × String) := do
  let path ← (Value.lookup "path" d).bind (·.elementsAs? Value.position?)
  let state ← d.state?
  let rule ← d.rule?
  return (path,
    String.ofList (List.replicate (2 * path.length) ' ') ++ state ++ rule)

end Dictionary

-- ============================================================== outlines

namespace ProofTree

/-- The dictionary of a node that stands at a path. -/
def dictionary [ToString α] (path : Path) (t : ProofTree α) : Dictionary :=
  [("path", Outline.pathValue path), ("closed", .bool t.state.isClosed),
   ("rule", match t.rule? with
     | some rule => .text rule.text
     | none => .null),
   ("children", .array (Outline.toValues (outlineChildren path 0 t.children)))]
  ++ match t.state with
    | .closed => []
    | .table s =>
      [("context", .array ((s.context.map Formula.text).map .text)),
       ("goal", .text s.goal.text)]

theorem toValue_outlineFrom [ToString α] (path : Path) (t : ProofTree α) :
    (t.outlineFrom path).toValue = .object (t.dictionary path) := by
  obtain ⟨state, rule, children⟩ := t
  cases state <;> cases rule <;> rfl

/-- The children of a dictionary are those under that name. -/
theorem childDictionaries_dictionary [ToString α] (path : Path)
    (t : ProofTree α) :
    childDictionaries (t.dictionary path)
      = elementDictionaries
          (Outline.toValues (outlineChildren path 0 t.children)) := by
  obtain ⟨state, rule, children⟩ := t
  cases state <;> cases rule <;> rfl

mutual

/-- The dictionaries within the one of a tree are those of its nodes, in the
order they are listed in. -/
theorem dictionaries_outlineFrom [ToString α] (path : Path) :
    ∀ t : ProofTree α, (t.outlineFrom path).toValue.dictionaries
      = (t.walkFrom path).map fun entry => entry.2.dictionary entry.1
  | .node state rule children => by
      rw [toValue_outlineFrom, Value.dictionaries,
        childDictionaries_dictionary, walkFrom, List.map_cons]
      exact congrArg _ (dictionaries_outlineChildren path 0 children)

theorem dictionaries_outlineChildren [ToString α] (path : Path) (i : Nat) :
    ∀ ts : List (ProofTree α),
      elementDictionaries (Outline.toValues (outlineChildren path i ts))
        = (walkChildren path i ts).map fun entry =>
            entry.2.dictionary entry.1
  | [] => rfl
  | t :: ts => by
      rw [outlineChildren, Outline.toValues, elementDictionaries,
        dictionaries_outlineFrom _ t, dictionaries_outlineChildren path _ ts,
        walkChildren, List.map_append]

end

/-- Flattened, the outline is the listing. -/
theorem dictionaries_outline [ToString α] (t : ProofTree α) :
    t.outline.toValue.dictionaries
      = t.walk.map fun entry => entry.2.dictionary entry.1 :=
  dictionaries_outlineFrom [] t

-- ================================================================ lines

/-- What is written element by element is read back. -/
theorem elementsAs?_map {β : Type} (write : β → Value)
    (read : Value → Option β) (h : ∀ b, read (write b) = some b)
    (bs : List β) :
    Value.elementsAs? read (.array (bs.map write)) = some bs := by
  rw [Value.elementsAs?]
  induction bs with
  | nil => rfl
  | cons b bs ih =>
      rw [List.map_cons, List.mapM_cons, h, ih]
      rfl

variable [ToString α]

/-- The text of a node's state can be put together from its dictionary. -/
theorem state?_dictionary (path : Path) (t : ProofTree α) :
    (t.dictionary path).state? = some t.state.text := by
  obtain ⟨state, rule, children⟩ := t
  cases state with
  | closed => rfl
  | table s =>
      have hclosed : Value.lookup "closed"
          (dictionary path (.node (.table s) rule children))
          = some (.bool false) := rfl
      have hcontext : (Value.lookup "context"
          (dictionary path (.node (.table s) rule children))).bind
            (·.elementsAs? Value.text?) = some (s.context.map Formula.text) :=
        elementsAs?_map Value.text Value.text? (fun _ => rfl) _
      have hgoal : (Value.lookup "goal"
          (dictionary path (.node (.table s) rule children))).bind
            Value.text? = some s.goal.text := rfl
      simp only [Dictionary.state?, hclosed, hcontext, hgoal,
        Option.bind_eq_bind, Option.bind_some, Option.pure_def]
      have hnumbered : ((s.context.map Formula.text).mapIdx fun i h =>
            "H" ++ toString i ++ ": " ++ h)
          = s.context.mapIdx fun i h =>
              "H" ++ toString i ++ ": " ++ h.text :=
        List.ext_getElem (by simp) (by simp)
      refine congrArg some ?_
      show _ = s.text
      unfold Dictionary.hypotheses Sequent.text
      rw [List.isEmpty_map, hnumbered]

/-- So can the text of its rule. -/
theorem rule?_dictionary (path : Path) (t : ProofTree α) :
    (t.dictionary path).rule?
      = some (match t.rule? with
        | some rule => " [" ++ rule.text ++ "]"
        | none => "") := by
  obtain ⟨state, rule, children⟩ := t
  cases rule <;> rfl

/-- The dictionary of a node says what its line is. -/
theorem line?_dictionary (path : Path) (t : ProofTree α) :
    (t.dictionary path).line?
      = some (path,
          String.ofList (Text.spaces (2 * path.length)) ++ t.text) := by
  have hpath : (Value.lookup "path" (t.dictionary path)).bind
      (·.elementsAs? Value.position?) = some path :=
    elementsAs?_map (fun i => .int (i : Nat)) Value.position?
      Value.position?_ofNat path
  have hspaces : Text.spaces (2 * path.length)
      = List.replicate (2 * path.length) ' ' := rfl
  have htext : t.text = t.state.text ++ (match t.rule? with
      | some rule => " [" ++ rule.text ++ "]"
      | none => "") := by
    unfold text
    cases t.rule? with
    | none => exact String.append_empty.symm
    | some rule => simp only [String.append_assoc]
  simp only [Dictionary.line?, hpath, state?_dictionary, rule?_dictionary,
    Option.bind_eq_bind, Option.bind_some, Option.pure_def]
  rw [hspaces, htext, String.append_assoc]

/-- The lines of a tree can be written from its outline. -/
theorem map_line?_outline (t : ProofTree α) :
    t.outline.toValue.dictionaries.map Dictionary.line?
      = (t.lines 2).map some := by
  rw [dictionaries_outline, lines, List.map_map, List.map_map]
  refine List.map_congr_left fun entry _ => ?_
  exact line?_dictionary entry.1 entry.2

-- ============================================================== finished

/-- A dictionary without children that is not closed is an open goal. -/
theorem isOpenGoal_iff_dictionary (path : Path) (t : ProofTree α) :
    t.isOpenGoal = true ↔
      Value.lookup "children" (t.dictionary path) = some (.array [])
        ∧ Value.lookup "closed" (t.dictionary path) ≠ some (.bool true) := by
  obtain ⟨state, rule, children⟩ := t
  have hchildren : Value.lookup "children"
      (dictionary path (.node state rule children))
      = some (.array (Outline.toValues (outlineChildren path 0 children))) :=
    rfl
  have hclosed : Value.lookup "closed"
      (dictionary path (.node state rule children))
      = some (.bool state.isClosed) := rfl
  rw [hchildren, hclosed]
  cases children with
  | nil => cases state <;> simp [isOpenGoal, ProofTree.children,
      ProofTree.state, State.isClosed, outlineChildren, Outline.toValues]
  | cons child children => simp [isOpenGoal, ProofTree.children,
      outlineChildren, Outline.toValues]

/-- Whether a faithful proof is finished can be seen from the dictionaries:
all nodes without children are closed. -/
theorem Faithful.proved_iff_dictionaries [BEq α] {t : ProofTree α}
    (hf : Faithful t) :
    t.proved = true ↔ ∀ d ∈ t.outline.toValue.dictionaries,
      Value.lookup "children" d = some (.array []) →
      Value.lookup "closed" d = some (.bool true) := by
  have hopen : t.proved = true ↔ t.openGoals = [] :=
    ⟨hf.openGoals_of_proved, hf.proved_of_openGoals⟩
  rw [hopen, openGoals, List.filter_eq_nil_iff, dictionaries_outline,
    List.forall_mem_map]
  refine forall_congr' fun entry => forall_congr' fun _ => ?_
  rw [isOpenGoal_iff_dictionary entry.1, not_and, not_ne_iff]

end ProofTree

namespace Web

open ProofTree

/-- The page and the screen agree on every proof. Of the dictionary that
is sent with it, flattened, each member gives the path and the text of the
line in its place; and the proof is sent as finished just if in it every
dictionary without children is closed. -/
theorem views_agree {goal : Goal} {t : ProofTree Atom}
    (h : Reaches (.ofGoal goal) t) :
    ∃ tree finished,
      (Reply.present t).messages.map Message.contents
          = [[.object [("tree", tree), ("proved", .bool finished)]]]
      ∧ tree.dictionaries.map Dictionary.line? = (t.lines 2).map some
      ∧ (finished = true ↔ ∀ d ∈ tree.dictionaries,
          Value.lookup "children" d = some (.array []) →
          Value.lookup "closed" d = some (.bool true)) := by
  have hf : Faithful t := faithful_of_reaches (.leaf _) h
  exact ⟨t.outline.toValue, t.proved, rfl, map_line?_outline t,
    hf.proved_iff_dictionaries⟩

/-- A proof that has two branches, one of them closed. -/
def halfway : ProofTree Atom :=
  (ofGoal (.imp (.and (.atom (.var "A")) (.atom (.const 7)))
      (.and (.atom (.const 7)) (.atom (.var "A"))))).run 9
    [.move (.array []) (.rule .implIntro),
     .move (.array [.int 0]) (.rule (.andElim (.int 0))),
     .move (.array [.int 0, .int 0]) (.rule .andIntro),
     .move (.array [.int 0, .int 0, .int 0]) (.rule (.assumption (.int 2)))]

/-- It is shown in six lines, which the dictionary that is sent gives as
well; and as it is sent it is not finished. -/
theorem views_agree_halfway :
    (halfway.lines 2).map (·.2)
        = ["|- A and 7 -> 7 and A [ImplIntro]",
           "  H0: A and 7 |- 7 and A [AndElim(0)]",
           "    H0: A and 7, H1: A, H2: 7 |- 7 and A [AndIntro]",
           "      H0: A and 7, H1: A, H2: 7 |- 7 [Assumption(2)]",
           "        ----",
           "      H0: A and 7, H1: A, H2: 7 |- A"]
      ∧ ∃ tree finished,
        (Reply.present halfway).messages.map Message.contents
            = [[.object [("tree", tree), ("proved", .bool finished)]]]
        ∧ tree.dictionaries.map Dictionary.line? = (halfway.lines 2).map some
        ∧ finished = false := by
  have hreach : Reaches (.ofGoal _) halfway := reaches_run 9 _ _
  obtain ⟨tree, finished, hsent, hlines, -⟩ := views_agree hreach
  have hproved : halfway.proved = false := by decide +kernel
  have hfinished :
      halfway.outline.toValue = tree ∧ halfway.proved = finished := by
    simpa [Message.contents] using hsent
  exact ⟨by decide +kernel, tree, finished, hsent, hlines,
    hfinished.2.symm.trans hproved⟩

end Web

end Deduction
