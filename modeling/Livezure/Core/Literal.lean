import Mathlib.Algebra.Order.Ring.Int
import Mathlib.Data.List.Basic

/-! Texts with quoted literals, in which a doubled quote stands for a quote, and
texts made by copying fields between quotes. -/
namespace Livezure.Core
variable {Symbol : Type} [DecidableEq Symbol] {quote : Symbol}

inductive Token (Symbol : Type) where
  | plain (symbol : Symbol)
  | literal (text : List Symbol)
  deriving DecidableEq

/-- The tokens of a text, outside of literals or in one whose text has begun.
A literal ends at the next quote that is not doubled. -/
def lex (quote : Symbol) : Option (List Symbol) → List Symbol → Option (List (Token Symbol))
  | none, [] => some []
  | some _, [] => none
  | none, symbol :: rest =>
    if symbol = quote then lex quote (some []) rest
    else (lex quote none rest).map (.plain symbol :: ·)
  | some text, [symbol] => if symbol = quote then some [.literal text] else none
  | some text, symbol :: next :: rest =>
    if symbol = quote then
      if next = quote then lex quote (some (text ++ [quote])) rest
      else (lex quote none (next :: rest)).map (.literal text :: ·)
    else lex quote (some (text ++ [symbol])) (next :: rest)

/-- The spelling of a text in a literal. -/
def escape (quote : Symbol) : List Symbol → List Symbol
  | [] => []
  | symbol :: rest =>
    if symbol = quote then quote :: quote :: escape quote rest else symbol :: escape quote rest

theorem escape_plain {text : List Symbol} (clean : quote ∉ text) : escape quote text = text := by
  induction text with
  | nil => rfl
  | cons symbol rest ih =>
    have different : symbol ≠ quote := fun same => clean (same ▸ List.mem_cons_self)
    rw [escape, if_neg different, ih fun member => clean (List.mem_cons_of_mem _ member)]

/-- Outside of literals each symbol is a token. -/
theorem lex_plain {symbols : List Symbol} (clean : quote ∉ symbols) (rest : List Symbol) :
    lex quote none (symbols ++ rest) = (lex quote none rest).map (symbols.map .plain ++ ·) := by
  induction symbols with
  | nil => simp
  | cons symbol symbols ih =>
    have different : symbol ≠ quote := fun same => clean (same ▸ List.mem_cons_self)
    rw [List.cons_append, lex, if_neg different,
      ih fun member => clean (List.mem_cons_of_mem _ member), Option.map_map]
    rfl

/-- In a literal, a closing quote is one that no quote follows. -/
theorem lex_close {text rest : List Symbol} (ends : rest.head? ≠ some quote) :
    lex quote (some text) (quote :: rest) = (lex quote none rest).map (.literal text :: ·) := by
  cases rest with
  | nil => simp [lex]
  | cons next rest =>
    have different : next ≠ quote := fun same => ends (same ▸ rfl)
    simp only [lex, if_true, if_neg different]

theorem lex_literal {rest : List Symbol} (ends : rest.head? ≠ some quote) (text before : List Symbol) :
    lex quote (some before) (escape quote text ++ quote :: rest) =
      (lex quote none rest).map (.literal (before ++ text) :: ·) := by
  induction text generalizing before with
  | nil =>
    rw [escape, List.nil_append, List.append_nil]
    exact lex_close ends
  | cons symbol text ih =>
    by_cases same : symbol = quote
    · have doubled : ∀ more, lex quote (some before) (quote :: quote :: more) =
          lex quote (some (before ++ [quote])) more := by
        intro more
        rw [lex, if_pos rfl, if_pos rfl]
      rw [escape, if_pos same, List.cons_append, List.cons_append, doubled, ih, same,
        List.append_assoc]
      rfl
    · have one : ∀ more, more ≠ [] → lex quote (some before) (symbol :: more) =
          lex quote (some (before ++ [symbol])) more := by
        intro more nonempty
        obtain ⟨next, others, rfl⟩ := List.exists_cons_of_ne_nil nonempty
        rw [lex, if_neg same]
      rw [escape, if_neg same, List.cons_append, one _ (by simp), ih, List.append_assoc]
      rfl

/-- A literal that was found is spelled in front, and a quote that is not doubled ends it. -/
theorem spelled_of_lex : ∀ (source before : List Symbol) {found : List Symbol}
    {tokens : List (Token Symbol)},
    lex quote (some before) source = some (.literal found :: tokens) →
      ∃ text rest, found = before ++ text ∧ source = escape quote text ++ quote :: rest ∧
        rest.head? ≠ some quote ∧ lex quote none rest = some tokens
  | [], before, found, tokens, lexed => by cases lexed
  | [symbol], before, found, tokens, lexed => by
    rw [lex] at lexed
    split at lexed
    · rename_i same
      obtain ⟨literal, rfl⟩ := List.cons.inj (Option.some.inj lexed)
      obtain rfl := Token.literal.inj literal
      exact ⟨[], [], (List.append_nil _).symm, by rw [same]; rfl, by simp, rfl⟩
    · cases lexed
  | symbol :: next :: rest, before, found, tokens, lexed => by
    rw [lex] at lexed
    split at lexed
    · rename_i same
      split at lexed
      · rename_i doubled
        obtain ⟨text, after, rfl, spelled, ends, lexed⟩ := spelled_of_lex rest _ lexed
        refine ⟨quote :: text, after, ?_, ?_, ends, lexed⟩
        · rw [List.append_assoc]
          rfl
        · rw [escape, if_pos rfl, same, doubled, spelled]
          rfl
      · rename_i single
        obtain ⟨others, behind, whole⟩ := Option.map_eq_some_iff.mp lexed
        obtain ⟨literal, rfl⟩ := List.cons.inj whole
        obtain rfl := Token.literal.inj literal
        refine ⟨[], next :: rest, (List.append_nil _).symm, by rw [same]; rfl, ?_, behind⟩
        intro head
        exact single (Option.some.inj head)
    · rename_i different
      obtain ⟨text, after, rfl, spelled, ends, lexed⟩ := spelled_of_lex (next :: rest) _ lexed
      refine ⟨symbol :: text, after, ?_, ?_, ends, lexed⟩
      · rw [List.append_assoc]
        rfl
      · rw [escape, if_neg different, spelled]
        rfl

/-- Quotes that are too many stay too many. -/
theorem spelled_ne (extra : Nat) {after rest : List Symbol} (ends : rest.head? ≠ some quote)
    (text : List Symbol) :
    List.replicate (extra + 1) quote ++ escape quote text ++ quote :: after ≠
      text ++ quote :: rest := by
  induction text generalizing extra with
  | nil =>
    intro same
    rw [escape, List.append_nil, List.replicate_succ, List.nil_append, List.cons_append] at same
    have behind := (List.cons.inj same).2
    apply ends
    rw [← behind]
    cases extra <;> rfl
  | cons symbol text ih =>
    intro same
    rw [List.replicate_succ, List.cons_append, List.cons_append, List.cons_append] at same
    obtain ⟨rfl, behind⟩ := List.cons.inj same
    apply ih (extra + 1)
    rw [← behind, escape, if_pos rfl, List.replicate_succ', List.replicate_succ']
    simp

/-- A text copied between quotes is spelled as a literal only if it has no quotes. -/
theorem clean_of_spelled {text after rest : List Symbol} (ends : rest.head? ≠ some quote)
    (spelled : escape quote text ++ quote :: after = text ++ quote :: rest) : quote ∉ text := by
  induction text with
  | nil => exact List.not_mem_nil
  | cons symbol text ih =>
    by_cases same : symbol = quote
    · exfalso
      rw [escape, if_pos same, same, List.cons_append, List.cons_append, List.cons_append] at spelled
      exact spelled_ne 0 ends text (List.cons.inj spelled).2
    · rw [escape, if_neg same, List.cons_append, List.cons_append] at spelled
      intro member
      rcases List.mem_cons.mp member with first | later
      · exact same first.symm
      · exact ih (List.cons.inj spelled).2 later

/-! ### Texts from a template -/

/-- A part of a template, with its field in place. -/
inductive Piece (Symbol : Type) where
  | plain (symbols : List Symbol)
  | literal (field : List Symbol)

/-- The text of a template: fields are copied between quotes. -/
def render (quote : Symbol) : List (Piece Symbol) → List Symbol
  | [] => []
  | .plain symbols :: rest => symbols ++ render quote rest
  | .literal field :: rest => quote :: (field ++ quote :: render quote rest)

/-- The tokens that a template is meant to have. -/
def meant : List (Piece Symbol) → List (Token Symbol)
  | [] => []
  | .plain symbols :: rest => symbols.map .plain ++ meant rest
  | .literal field :: rest => .literal field :: meant rest

/-- The fields of a template. -/
def fields : List (Piece Symbol) → List (List Symbol)
  | [] => []
  | .plain _ :: rest => fields rest
  | .literal field :: rest => field :: fields rest

/-- The only quotes of a template are around its fields, and no two of them meet. -/
def Separated (quote : Symbol) : List (Piece Symbol) → Prop
  | [] => True
  | .plain symbols :: rest => quote ∉ symbols ∧ Separated quote rest
  | .literal _ :: rest => (render quote rest).head? ≠ some quote ∧ Separated quote rest

/-- A text has the tokens it is meant to have exactly if no field has a quote. -/
theorem lex_render_iff {pieces : List (Piece Symbol)} (separated : Separated quote pieces) :
    lex quote none (render quote pieces) = some (meant pieces) ↔
      ∀ field ∈ fields pieces, quote ∉ field := by
  induction pieces with
  | nil => exact ⟨fun _ _ member => absurd member List.not_mem_nil, fun _ => rfl⟩
  | cons piece rest ih =>
    cases piece with
    | plain symbols =>
      rw [render, lex_plain separated.1, meant, fields, ← ih separated.2]
      constructor
      · intro lexed
        obtain ⟨tokens, lexed, same⟩ := Option.map_eq_some_iff.mp lexed
        rw [lexed, List.append_cancel_left same]
      · intro lexed
        rw [lexed]
        rfl
    | literal field =>
      have opened : lex quote none (render quote (.literal field :: rest)) =
          lex quote (some []) (field ++ quote :: render quote rest) := by
        rw [render, lex, if_pos rfl]
      rw [opened, meant, fields, List.forall_mem_cons, ← ih separated.2]
      constructor
      · intro lexed
        obtain ⟨text, after, rfl, spelled, ends, lexed⟩ := spelled_of_lex _ _ lexed
        have clean := clean_of_spelled separated.1 spelled.symm
        rw [escape_plain clean] at spelled
        have behind := (List.cons.inj (List.append_cancel_left spelled)).2
        exact ⟨clean, behind ▸ lexed⟩
      · rintro ⟨clean, lexed⟩
        have literal := lex_literal separated.1 field []
        rw [escape_plain clean, lexed] at literal
        exact literal

/-! ### The length of a text -/

/-- What a template adds to its fields. -/
def width : List (Piece Symbol) → Nat
  | [] => 0
  | .plain symbols :: rest => symbols.length + width rest
  | .literal _ :: rest => width rest + 2

omit [DecidableEq Symbol] in
theorem length_render (quote : Symbol) (pieces : List (Piece Symbol)) :
    (render quote pieces).length = width pieces + ((fields pieces).map List.length).sum := by
  induction pieces with
  | nil => rfl
  | cons piece rest ih =>
    cases piece with
    | plain symbols =>
      rw [render, List.length_append, ih, width, fields, Nat.add_assoc]
    | literal field =>
      rw [render, List.length_cons, List.length_append, List.length_cons, ih, width, fields,
        List.map_cons, List.sum_cons]
      omega

omit [DecidableEq Symbol] in
theorem width_append (front rest : List (Piece Symbol)) :
    width (front ++ rest) = width front + width rest := by
  induction front with
  | nil => rw [List.nil_append, width, Nat.zero_add]
  | cons piece front ih =>
    cases piece with
    | plain symbols => rw [List.cons_append, width, width, ih, Nat.add_assoc]
    | literal field => rw [List.cons_append, width, width, ih, Nat.add_right_comm]

/-- The parts of a template around its fields are short. -/
def ShortParts (most : Nat) : List (Piece Symbol) → Prop
  | [] => True
  | .plain symbols :: rest => symbols.length ≤ most ∧ ShortParts most rest
  | .literal _ :: rest => ShortParts most rest

omit [DecidableEq Symbol] in
/-- A text is short if the parts of its template and its fields are. -/
theorem length_render_le {most largest : Nat} {pieces : List (Piece Symbol)}
    (parts : ShortParts most pieces) (small : ∀ field ∈ fields pieces, field.length ≤ largest)
    (quote : Symbol) : (render quote pieces).length ≤
      most * pieces.length + (largest + 2) * (fields pieces).length := by
  induction pieces with
  | nil => exact Nat.zero_le _
  | cons piece rest ih =>
    cases piece with
    | plain symbols =>
      have behind := ih parts.2 small
      have first := parts.1
      rw [render, List.length_append, fields, List.length_cons, Nat.mul_succ]
      omega
    | literal field =>
      have behind := ih parts fun other member => small other (List.mem_cons_of_mem _ member)
      have first := small field List.mem_cons_self
      rw [render, List.length_cons, List.length_append, List.length_cons, fields, List.length_cons,
        List.length_cons, Nat.mul_succ, Nat.mul_succ]
      omega

end Livezure.Core
