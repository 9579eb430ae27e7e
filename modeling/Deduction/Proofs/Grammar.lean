/-
The grammar of formulas, and that the parser accepts just that.

A sentence is an atom, then any number of operators each followed by an
atom. It says nothing about how strongly operators bind, so by itself it
does not make a formula. The formula is singled out by two properties:
its tokens in order are the sentence, and it is shaped. There is one such
formula and the parser finds it.

Tokens given by hand may carry a payload on an operator, which no formula
can show. Token lists are therefore compared without it (`Token.bare`);
the scanner never puts one there.
-/
import Deduction.Formula.Read
import Deduction.Proofs.Climbing

namespace Deduction

-- ============================================================ sentences

namespace Token

/-- Whether a token stands for an atom. -/
def isOperand (t : Token) : Bool :=
  t.kind == .identifier || t.kind == .constant

/-- Whether a token carries what its kind asks for: an identifier a text
and a constant a whole number. -/
def isLoaded : Token → Bool
  | ⟨.identifier, some (.text _)⟩ => true
  | ⟨.constant, some (.int _)⟩ => true
  | t => !t.isOperand

/-- The token without a payload that no formula can show. -/
def bare (t : Token) : Token :=
  if t.isOperand then t else ⟨t.kind, none⟩

/-- An atom, then any number of operators each followed by an atom. -/
inductive Sentence : List Token → Prop where
  | operand {t : Token} : t.isOperand = true → Sentence [t]
  | operator {t o : Token} {ts : List Token} :
      t.isOperand = true → o.kind.connective?.isSome = true →
      Sentence ts → Sentence (t :: o :: ts)

end Token

def Atom.token : Atom → Token
  | .var name => ⟨.identifier, some (.text name)⟩
  | .const n => ⟨.constant, some (.int n)⟩

def Connective.token : Connective → Token
  | .and => ⟨.and, none⟩
  | .or => ⟨.or, none⟩
  | .imp => ⟨.implies, none⟩

/-- The tokens of a goal, in order. -/
def Formula.tokens : Formula Atom → List Token
  | .atom a => [a.token]
  | .binary op left right => left.tokens ++ op.token :: right.tokens

-- ============================================================== tokens

theorem Atom.ofToken_token (a : Atom) : Atom.ofToken a.token = some (.ok a) := by
  cases a <;> rfl

theorem Connective.connective?_token (op : Connective) :
    op.token.kind.connective? = some op := by
  cases op <;> rfl

/-- Different atoms have different tokens. -/
theorem Atom.token_injective {a b : Atom} (h : a.token = b.token) : a = b := by
  -- a token is read as what it is the token of
  have hread := Atom.ofToken_token a
  rw [h, Atom.ofToken_token] at hread
  injection hread with hread
  injection hread with hread
  exact hread.symm

/-- So have different connectives. -/
theorem Connective.token_injective {op op' : Connective}
    (h : op.token = op'.token) : op = op' := by
  have hread := Connective.connective?_token op
  rw [h, Connective.connective?_token] at hread
  injection hread with hread
  exact hread.symm

namespace Token

/-- What is read as an atom is an operand. -/
theorem isOperand_of_ofToken {t : Token} {a : Atom}
    (h : Atom.ofToken t = some (.ok a)) : t.isOperand = true := by
  unfold Atom.ofToken at h
  unfold isOperand
  split at h
  next hkind => rw [hkind]; rfl
  next hkind => rw [hkind]; rfl
  next => cases h

/-- And a loaded operand is read as an atom. -/
theorem ofToken_of_isOperand {t : Token} (hload : t.isLoaded = true)
    (h : t.isOperand = true) : ∃ a, Atom.ofToken t = some (.ok a) := by
  unfold isLoaded at hload
  split at hload
  next name => exact ⟨.var name, rfl⟩
  next n => exact ⟨.const n, rfl⟩
  next => rw [h] at hload; cases hload

/-- What is read from a loaded token has that token. -/
theorem bare_of_ofToken {t : Token} {a : Atom} (hload : t.isLoaded = true)
    (h : Atom.ofToken t = some (.ok a)) : t.bare = a.token := by
  have hoperand := isOperand_of_ofToken h
  unfold bare
  rw [if_pos hoperand]
  unfold isLoaded at hload
  split at hload
  next name =>
    injection h with h
    injection h with h
    rw [← h]
    rfl
  next n =>
    injection h with h
    injection h with h
    rw [← h]
    rfl
  next => rw [hoperand] at hload; cases hload

/-- An operator without its payload is the token of its connective. -/
theorem bare_of_connective? {t : Token} {op : Connective}
    (h : t.kind.connective? = some op) : t.bare = op.token := by
  unfold Kind.connective? at h
  unfold bare isOperand
  split at h
  next hkind => injection h with h; rw [hkind, ← h]; rfl
  next hkind => injection h with h; rw [hkind, ← h]; rfl
  next hkind => injection h with h; rw [hkind, ← h]; rfl
  next => cases h

/-- Nothing is dropped from tokens whose operators carry nothing. -/
theorem map_bare {tokens : List Token}
    (h : ∀ t ∈ tokens, t.isOperand = false → t.payload = none) :
    tokens.map bare = tokens := by
  have hbare : ∀ t ∈ tokens, bare t = id t := by
    intro t ht
    unfold bare
    cases hop : t.isOperand with
    | true => rfl
    | false =>
        rw [if_neg (by decide), ← h t ht hop]
        rfl
  rw [List.map_congr_left hbare, List.map_id]

end Token

-- ==================================================== tokens of formulas

def pairTokens (xs : List (Connective × Atom)) : List Token :=
  xs.flatMap fun x => [x.1.token, x.2.token]

@[simp] theorem pairTokens_cons (op : Connective) (a : Atom)
    (xs : List (Connective × Atom)) :
    pairTokens ((op, a) :: xs) = op.token :: a.token :: pairTokens xs := rfl

/-- Pairs are known by their tokens. -/
theorem pairTokens_injective {xs ys : List (Connective × Atom)}
    (h : pairTokens xs = pairTokens ys) : xs = ys := by
  induction xs generalizing ys with
  | nil =>
      cases ys with
      | nil => rfl
      | cons y ys => cases h
  | cons x xs ih =>
      cases ys with
      | nil => cases h
      | cons y ys =>
          obtain ⟨op, a⟩ := x
          obtain ⟨op', b⟩ := y
          rw [pairTokens_cons, pairTokens_cons] at h
          injection h with hop h
          injection h with ha h
          rw [Connective.token_injective hop, Atom.token_injective ha, ih h]

namespace Formula

/-- The tokens of a goal are those of how it reads. -/
theorem tokens_eq (f : Goal) :
    f.tokens = f.first.token :: pairTokens f.pairs := by
  induction f with
  | atom a => rfl
  | binary op left right ihl ihr =>
      rw [tokens, ihl, ihr, first, pairs]
      unfold pairTokens
      rw [List.flatMap_append, List.flatMap_cons]
      rfl

/-- Shaped goals are known by their tokens. -/
theorem eq_of_tokens_eq {f g : Goal} (hf : f.isShaped = true)
    (hg : g.isShaped = true) (h : f.tokens = g.tokens) : f = g := by
  rw [tokens_eq, tokens_eq] at h
  injection h with hfirst hpairs
  exact eq_of_pairs_eq hf hg (Atom.token_injective hfirst)
    (pairTokens_injective hpairs)

theorem tokens_graft (a : Atom) (xs : List (Connective × Atom)) :
    ((atom a).graft xs).tokens = a.token :: pairTokens xs := by
  rw [tokens_eq, first_graft, pairs_graft]
  rfl

end Formula

namespace Clause

/-- Between arrows there are none. -/
theorem arrow_notMem_tokens (c : Clause Atom) :
    Connective.imp.token ∉ c.formula.tokens := by
  -- a token of an atom is no arrow, and the operators of a clause are none
  rw [← graft_rest, Formula.tokens_graft]
  intro hmem
  rcases List.mem_cons.1 hmem with h | hmem
  · cases hc : c.first with
    | var name => rw [hc] at h; cases h
    | const n => rw [hc] at h; cases h
  · obtain ⟨⟨op, a⟩, hx, h⟩ := List.mem_flatMap.1 hmem
    rcases List.mem_cons.1 h with h | h
    · exact c.noArrow _ hx (Connective.token_injective h).symm
    · have h := List.mem_singleton.1 h
      cases a with
      | var name => cases h
      | const n => cases h

/-- The tokens of clauses are joined by arrows. -/
theorem tokens_implication (premises : List (Clause Atom))
    (conclusion : Clause Atom) :
    (implication premises conclusion).tokens
      = [Connective.imp.token].intercalate
          ((premises ++ [conclusion]).map fun c => c.formula.tokens) := by
  induction premises with
  | nil =>
      rw [List.nil_append, List.map_singleton, List.intercalate_singleton]
      rfl
  | cons c premises ih =>
      rw [List.cons_append, List.map_cons,
        List.intercalate_cons_of_ne_nil (by simp), ← ih, List.append_assoc]
      rfl

/-- Cut at its arrows, an implication falls into its clauses. -/
theorem splitOn_tokens_implication (premises : List (Clause Atom))
    (conclusion : Clause Atom) :
    (implication premises conclusion).tokens.splitOn Connective.imp.token
      = (premises ++ [conclusion]).map fun c => c.formula.tokens := by
  rw [tokens_implication]
  refine List.splitOn_intercalate _ ?_ (by simp)
  intro l hl
  obtain ⟨c, -, rfl⟩ := List.mem_map.1 hl
  exact arrow_notMem_tokens c

end Clause

-- ============================================================= parsing

namespace Formula

/-- Loaded tokens that are read as pairs are the tokens of those pairs. -/
theorem pairTokens_of_readAs {ts : List Token}
    {xs : List (Connective × Atom)} (hload : ∀ t ∈ ts, t.isLoaded = true)
    (h : ReadAs Atom.ofToken ts xs) : pairTokens xs = ts.map Token.bare := by
  induction h with
  | nil => rfl
  | @cons t u ts op a xs hop hread _ ih =>
      have hu : u.isLoaded = true := hload u (by simp)
      have hts : ∀ t ∈ ts, t.isLoaded = true := fun t ht =>
        hload t (List.mem_cons_of_mem _ (List.mem_cons_of_mem _ ht))
      rw [pairTokens_cons, ih hts, List.map_cons, List.map_cons,
        Token.bare_of_connective? hop, Token.bare_of_ofToken hu hread]

/-- A goal that is parsed from loaded tokens has those tokens and is
shaped. -/
theorem tokens_of_parse {tokens : List Token} {f : Goal}
    (hload : ∀ t ∈ tokens, t.isLoaded = true)
    (h : parse Atom.ofToken tokens = .ok f) :
    f.tokens = tokens.map Token.bare ∧ f.isShaped = true := by
  obtain ⟨t, ts, a, xs, rfl, hread, hpairs, rfl⟩ := (parse_eq_ok_iff _).1 h
  have hts : ∀ t ∈ ts, t.isLoaded = true := fun u hu =>
    hload u (List.mem_cons_of_mem _ hu)
  refine ⟨?_, isShaped_graft rfl (isShaped_atom a) xs⟩
  rw [tokens_graft, List.map_cons, pairTokens_of_readAs hts hpairs,
    Token.bare_of_ofToken (hload t List.mem_cons_self) hread]

/-- The tokens of a shaped goal are parsed as that goal. -/
theorem parse_tokens {f : Goal} (hf : f.isShaped = true) :
    parse Atom.ofToken f.tokens = .ok f := by
  have hpairs : ∀ xs : List (Connective × Atom),
      ReadAs Atom.ofToken (pairTokens xs) xs := by
    intro xs
    induction xs with
    | nil => exact .nil
    | cons x xs ih =>
        exact .cons x.1.connective?_token x.2.ofToken_token ih
  rw [tokens_eq]
  exact (parse_eq_ok_iff _).2 ⟨_, _, f.first, f.pairs, rfl,
    f.first.ofToken_token, hpairs f.pairs, (graft_pairs hf).symm⟩

/-- An operand and pairs behind it are a sentence. -/
theorem sentence_of_readAs {t : Token} {ts : List Token}
    {xs : List (Connective × Atom)} (ht : t.isOperand = true)
    (h : ReadAs Atom.ofToken ts xs) : Token.Sentence (t :: ts) := by
  induction h generalizing t with
  | nil => exact .operand ht
  | cons hop hread _ ih =>
      refine .operator ht ?_ (ih (Token.isOperand_of_ofToken hread))
      rw [hop]
      rfl

/-- And every sentence of loaded tokens is an operand with pairs behind it.
The induction is over the sentence, two tokens at a time. -/
theorem parse_of_sentence {tokens : List Token} (h : Token.Sentence tokens)
    (hload : ∀ t ∈ tokens, t.isLoaded = true) :
    ∃ t ts a xs, tokens = t :: ts ∧ Atom.ofToken t = some (.ok a)
      ∧ ReadAs Atom.ofToken ts xs := by
  induction h with
  | @operand t ht =>
      obtain ⟨a, ha⟩ :=
        Token.ofToken_of_isOperand (hload t List.mem_cons_self) ht
      exact ⟨t, [], a, [], rfl, ha, .nil⟩
  | @operator t o ts ht ho _ ih =>
      obtain ⟨a, ha⟩ :=
        Token.ofToken_of_isOperand (hload t List.mem_cons_self) ht
      obtain ⟨op, hop⟩ := Option.isSome_iff_exists.1 ho
      have hts : ∀ t ∈ ts, t.isLoaded = true := fun u hu =>
        hload u (List.mem_cons_of_mem _ (List.mem_cons_of_mem _ hu))
      obtain ⟨u, us, b, xs, rfl, hb, hus⟩ := ih hts
      exact ⟨t, o :: u :: us, a, (op, b) :: xs, rfl, ha, .cons hop hb hus⟩

/-- The parser accepts just the sentences, and what it makes of one is
the only shaped goal with its tokens: the right fold over the arrows of
the left folds over what stands between them. -/
theorem parse_grammar (tokens : List Token)
    (hload : ∀ t ∈ tokens, t.isLoaded = true) :
    ((∃ f : Goal, parse Atom.ofToken tokens = .ok f)
        ↔ Token.Sentence tokens)
      ∧ ∀ f : Goal, parse Atom.ofToken tokens = .ok f →
        f.tokens = tokens.map Token.bare
          ∧ ((∀ t ∈ tokens, t.isOperand = false → t.payload = none) →
            f.tokens = tokens)
          ∧ f.isShaped = true
          ∧ (∀ g : Goal, g.tokens = tokens.map Token.bare →
            g.isShaped = true → g = f)
          ∧ ∃ (premises : List (Clause Atom)) (conclusion : Clause Atom),
            f = premises.foldr (fun c g => .imp c.formula g)
                conclusion.formula
              ∧ (tokens.map Token.bare).splitOn Connective.imp.token
                = (premises ++ [conclusion]).map fun c => c.formula.tokens := by
  refine ⟨⟨?_, ?_⟩, ?_⟩
  · rintro ⟨f, hf⟩
    obtain ⟨t, ts, a, xs, rfl, hread, hpairs, -⟩ := (parse_eq_ok_iff _).1 hf
    exact sentence_of_readAs (Token.isOperand_of_ofToken hread) hpairs
  · intro h
    obtain ⟨t, ts, a, xs, htokens, hread, hpairs⟩ := parse_of_sentence h hload
    exact ⟨_, (parse_eq_ok_iff _).2 ⟨t, ts, a, xs, htokens, hread, hpairs, rfl⟩⟩
  · intro f hf
    obtain ⟨htokens, hshaped⟩ := tokens_of_parse hload hf
    obtain ⟨premises, conclusion, hfold⟩ := Clause.exists_implication_eq hshaped
    refine ⟨htokens, ?_, hshaped, ?_, premises, conclusion, hfold.symm, ?_⟩
    · intro hbare
      rw [htokens, Token.map_bare hbare]
    · intro g hg hgshaped
      exact eq_of_tokens_eq hgshaped hshaped (hg.trans htokens.symm)
    · rw [← htokens, ← hfold]
      exact Clause.splitOn_tokens_implication premises conclusion

/-- A formula with all three connectives: `A or 7 -> B and C -> A`. -/
def mixed : Goal :=
  .imp (.or (.atom (.var "A")) (.atom (.const 7)))
    (.imp (.and (.atom (.var "B")) (.atom (.var "C"))) (.atom (.var "A")))

/-- Its tokens. -/
def mixedTokens : List Token :=
  [⟨.identifier, some (.text "A")⟩, ⟨.or, none⟩,
   ⟨.constant, some (.int 7)⟩, ⟨.implies, none⟩,
   ⟨.identifier, some (.text "B")⟩, ⟨.and, none⟩,
   ⟨.identifier, some (.text "C")⟩, ⟨.implies, none⟩,
   ⟨.identifier, some (.text "A")⟩]

/-- The tokens are a sentence, and the formula is the one they make. -/
theorem parse_grammar_mixed :
    Token.Sentence mixedTokens
      ∧ parse Atom.ofToken mixedTokens = .ok mixed
      ∧ mixed.tokens = mixedTokens := by
  have hload : ∀ t ∈ mixedTokens, t.isLoaded = true := by decide
  have hsentence : Token.Sentence mixedTokens :=
    .operator rfl rfl (.operator rfl rfl (.operator rfl rfl
      (.operator rfl rfl (.operand rfl))))
  obtain ⟨hiff, hparsed⟩ := parse_grammar mixedTokens hload
  obtain ⟨f, hf⟩ := hiff.2 hsentence
  obtain ⟨-, htokens, -, hunique, -⟩ := hparsed f hf
  have hmixed : mixed = f := hunique mixed (by decide) (by decide)
  refine ⟨hsentence, ?_, ?_⟩
  · rw [hf, hmixed]
  · rw [hmixed]
    exact htokens (by decide)

end Formula

end Deduction
