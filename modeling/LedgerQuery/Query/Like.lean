/-
  LedgerQuery.Query.Like

  Text patterns: `%` stands for any run of characters, `_` for exactly one, anything else for
  itself. The matcher runs over the text once; at a mismatch it goes back to the last `%` it has
  passed and lets that take one character more.
-/
import LedgerQuery.Text.Lowercase

namespace LedgerQuery.Like

/-- The pattern character for any run of characters. -/
def anyRun : Char := '%'

/-- The pattern character for exactly one character. -/
def anyOne : Char := '_'

/-- Match what is left of a text against what is left of a pattern, after a `%` that may still
    take in more: its third argument starts where that `%` stopped, its fourth follows the `%`. -/
def scan : (text pattern resumeText resumePattern : List Char) →
    text.length ≤ resumeText.length → Bool
  | [], pattern, _, _, _ => pattern.all (· = anyRun)
  | _ :: _, _, [], _, _ => false
  | t :: ts, c :: ps, r :: rs, resumePattern, behind =>
    -- A later run takes over from the one before: what that took in need not be tried again.
    if c = anyRun then scan (t :: ts) ps (t :: ts) ps (Nat.le_refl _)
    else if c = anyOne ∨ c = t then
      scan ts ps (r :: rs) resumePattern (Nat.le_of_succ_le behind)
    else scan rs resumePattern rs resumePattern (Nat.le_refl _)
  | _ :: _, [], _ :: rs, resumePattern, _ =>
    scan rs resumePattern rs resumePattern (Nat.le_refl _)
termination_by _ pattern resumeText _ _ => (resumeText.length, pattern.length)
decreasing_by
  all_goals simp only [Prod.lex_def, List.length_cons] at *
  · exact (Nat.lt_or_eq_of_le behind).imp_right fun e => ⟨e, Nat.lt_succ_self _⟩
  · exact .inr ⟨trivial, Nat.lt_succ_self _⟩
  · exact .inl (Nat.lt_succ_self _)
  · exact .inl (Nat.lt_succ_self _)

/-- Match a text against a pattern before any `%` has been passed. -/
def start : (text pattern : List Char) → Bool
  | [], pattern => pattern.all (· = anyRun)
  | t :: ts, c :: ps =>
    if c = anyRun then scan (t :: ts) ps (t :: ts) ps (Nat.le_refl _)
    else if c = anyOne ∨ c = t then start ts ps
    else false
  | _ :: _, [] => false

/-- The characters that are matched: all of a text's, in lower case if case is ignored. -/
def characters (ignoreCase : Bool) (text : String) : List Char :=
  if ignoreCase then (Lowercase.fold text).toList else text.toList

/-- Whether a text matches a pattern. -/
def holds (ignoreCase : Bool) (text pattern : String) : Bool :=
  start (characters ignoreCase text) (characters ignoreCase pattern)

end LedgerQuery.Like
