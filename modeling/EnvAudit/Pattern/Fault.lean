import EnvAudit.Number.Decimal
import EnvAudit.Text.Quoted

/-!
# What can be wrong with a written pattern
-/
namespace EnvAudit

/-- Why a text is no pattern. -/
inductive PatternProblem where
  | badEscape (escape : Text)
  | escapeAtEnd
  | incompleteEscape (escape : Text)
  | octalTooLarge (escape : Text)
  | missingBrace
  | unknownCharacter (name : Text)
  | unterminatedSet
  | badRange (first last : Text)
  | nothingToRepeat
  | multipleRepeat
  | minAboveMax
  | unterminatedGroup
  | unterminatedComment
  | unbalanced
  | patternEnds
  | missingName (what : Text)
  | unterminatedName (stop : Char)
  | unknownExtension (extension : Text)
  | badGroupName (name : Text)
  | unknownGroup (name : Text)
  | openGroup
  | groupInSameLookbehind
  | badGroupNumber
  | invalidReference (n : Nat)
  | redefinition (name : Text) (group previous : Nat)
  | tooManyBranches
  | lateFlags
  | unknownFlag
  | flagsUnfinished (expected : Text)
  | flags (complaint : Text)
deriving DecidableEq, Repr

/-- The words for a problem. -/
def PatternProblem.message : PatternProblem → Text
  | .badEscape e => "bad escape ".toList ++ e
  | .escapeAtEnd => "bad escape (end of pattern)".toList
  | .incompleteEscape e => "incomplete escape ".toList ++ e
  | .octalTooLarge e =>
    "octal escape value ".toList ++ e ++ " outside of range 0-0o377".toList
  | .missingBrace => "missing \x7b".toList
  | .unknownCharacter n => "undefined character name ".toList ++ Text.quoted n
  | .unterminatedSet => "unterminated character set".toList
  | .badRange a b => "bad character range ".toList ++ a ++ ['-'] ++ b
  | .nothingToRepeat => "nothing to repeat".toList
  | .multipleRepeat => "multiple repeat".toList
  | .minAboveMax => "min repeat greater than max repeat".toList
  | .unterminatedGroup => "missing ), unterminated subpattern".toList
  | .unterminatedComment => "missing ), unterminated comment".toList
  | .unbalanced => "unbalanced parenthesis".toList
  | .patternEnds => "unexpected end of pattern".toList
  | .missingName what => "missing ".toList ++ what
  | .unterminatedName stop => "missing ".toList ++ [stop] ++ ", unterminated name".toList
  | .unknownExtension e => "unknown extension ?".toList ++ e
  | .badGroupName n => "bad character in group name ".toList ++ Text.quoted n
  | .unknownGroup n => "unknown group name ".toList ++ Text.quoted n
  | .openGroup => "cannot refer to an open group".toList
  | .groupInSameLookbehind =>
    "cannot refer to group defined in the same lookbehind subpattern".toList
  | .badGroupNumber => "bad group number".toList
  | .invalidReference n => "invalid group reference ".toList ++ natText n
  | .redefinition n g p =>
    "redefinition of group name ".toList ++ Text.quoted n ++ " as group ".toList ++ natText g ++
      "; was group ".toList ++ natText p
  | .tooManyBranches => "conditional backref with more than two branches".toList
  | .lateFlags => "global flags not at the start of the expression".toList
  | .unknownFlag => "unknown flag".toList
  | .flagsUnfinished expected => "missing ".toList ++ expected
  | .flags complaint => "bad inline flags: ".toList ++ complaint

/-- Why a text was not read as a pattern. -/
inductive PatternFault where
  /-- The problem and its position. -/
  | malformed (problem : PatternProblem) (position : Nat)
  /-- What is looked for behind a place has no fixed width. -/
  | looseLookbehind
  /-- A number of repetitions is out of bounds. -/
  | tooManyRepeats
deriving DecidableEq, Repr

/-- The message for a fault of a written pattern; the line and column are given if the pattern has
several lines. -/
def PatternFault.message (pattern : Text) : PatternFault → Text
  | .malformed problem position =>
    let head := pattern.take position
    let place :=
      if pattern.contains '\n' then
        " (line ".toList ++ natText (head.count '\n' + 1) ++ ", column ".toList ++
          natText ((head.reverse.takeWhile (· != '\n')).length + 1) ++ ")".toList
      else []
    problem.message ++ " at position ".toList ++ natText position ++ place
  | .looseLookbehind => "look-behind requires fixed-width pattern".toList
  | .tooManyRepeats => "the repetition number is too large".toList

end EnvAudit
