/-
The deterministic guardrail engine.

Content is a byte string, as Go's `string` is, so a window cut in the middle of a
character is a value of the model like any other.  A regular expression is
whatever the regexp package compiled: a matcher and a replacer.  What `New`
checks of a rule is kept as fields of the compiled rule, so no engine holds an
empty pattern, an empty replacement, or a regex kind without its regex.
-/
import LiteAIG.Lib.Redact

namespace LiteAIG.Guardrail

/-- A Go string: any sequence of bytes. -/
abbrev Text := List UInt8

/-- The bytes of an ASCII literal. -/
def ascii (s : String) : Text := s.toList.map fun c => UInt8.ofNat c.toNat

/-- One rule of a policy, before it is compiled. -/
structure Rule where
  (id kind pattern action replacement : Text)

inductive RuleKind
  | keyword | regex | secret | pii | promptInjection
  deriving DecidableEq

/-- The supported vocabulary of rule kinds. -/
def RuleKind.parse (kind : Text) : Option RuleKind :=
  if kind = ascii "keyword" then some .keyword
  else if kind = ascii "regex" then some .regex
  else if kind = ascii "secret" then some .secret
  else if kind = ascii "pii" then some .pii
  else if kind = ascii "prompt_injection" then some .promptInjection
  else none

inductive Action
  | block | redact
  deriving DecidableEq

def Action.parse (action : Text) : Option Action :=
  if action = ascii "block" then some .block
  else if action = ascii "redact" then some .redact
  else none

/-- A compiled regular expression. -/
structure Regexp where
  matchString : Text → Bool
  replaceAllString : Text → Text → Text

/-- How a rule finds its matches: every kind but `keyword` goes through a regex. -/
inductive Matcher
  | keyword
  | regex (re : Regexp)

/-- A rule the engine runs, with what `New` has checked of it. -/
structure CompiledRule where
  id : Text
  matcher : Matcher
  pattern : Text
  action : Action
  replacement : Text
  id_ne : id ≠ []
  pattern_ne : pattern ≠ []
  replacement_ne : replacement ≠ []

structure Engine where
  version : Int
  rules : List CompiledRule

structure Match where
  ruleID : Text
  action : Action
  contentHash : Text

structure Result where
  content : Text
  blocked : Bool
  hits : List Match

/-- The zero `Result`. -/
def Result.empty : Result := ⟨[], false, []⟩

/-- Why `New` refuses a policy. -/
inductive CompileError
  | invalidRule
  | unsupportedKind
  | badPattern
  deriving DecidableEq

/-- An empty replacement stands for the default one. -/
def effectiveReplacement (replacement : Text) : Text :=
  if replacement = [] then ascii "[redacted]" else replacement

theorem effectiveReplacement_ne (replacement : Text) : effectiveReplacement replacement ≠ [] := by
  unfold effectiveReplacement
  split
  · decide
  · assumption

/-- Compile one rule; `compile` is the regexp package's parser. -/
def compileRule (compile : Text → Option Regexp) (rule : Rule) :
    Except CompileError CompiledRule :=
  if hid : rule.id = [] then .error .invalidRule
  else if hpat : rule.pattern = [] then .error .invalidRule
  else
    match Action.parse rule.action with
    | none => .error .invalidRule
    | some action =>
      match RuleKind.parse rule.kind with
      | none => .error .unsupportedKind
      | some .keyword =>
        .ok ⟨rule.id, .keyword, rule.pattern, action, effectiveReplacement rule.replacement,
          hid, hpat, effectiveReplacement_ne _⟩
      | some _ =>
        match compile rule.pattern with
        | none => .error .badPattern
        | some re =>
          .ok ⟨rule.id, .regex re, rule.pattern, action,
            effectiveReplacement rule.replacement, hid, hpat, effectiveReplacement_ne _⟩

/-- Compile a policy: the first bad rule refuses it. -/
def Engine.new (compile : Text → Option Regexp) (version : Int) (rules : List Rule) :
    Except CompileError Engine :=
  (rules.mapM (compileRule compile)).map fun compiled => ⟨version, compiled⟩

/-- Whether the rule finds something in the content. -/
def CompiledRule.found (rule : CompiledRule) (content : Text) : Bool :=
  match rule.matcher with
  | .keyword => decide (rule.pattern <:+: content)
  | .regex re => re.matchString content

/-- The content with every match of the rule replaced. -/
def CompiledRule.redacted (rule : CompiledRule) (content : Text) : Text :=
  match rule.matcher with
  | .keyword => Lib.replaceAll rule.pattern rule.replacement content
  | .regex re => re.replaceAllString content rule.replacement

/-- Run the rules in order over the content so far; a block ends the walk.
`hash` is the digest of the content as it came in. -/
def evaluateRules (hash : Text) : List CompiledRule → Result → Result
  | [], result => result
  | rule :: rest, result =>
    if rule.found result.content then
      let hits := result.hits ++ [⟨rule.id, rule.action, hash⟩]
      match rule.action with
      | .block => { result with hits, blocked := true }
      | .redact => evaluateRules hash rest
        { result with content := rule.redacted result.content, hits }
    else evaluateRules hash rest result

/-- Evaluate content against the engine; `sum` is the hex SHA-256 digest. -/
def Engine.evaluate (sum : Text → Text) (e : Engine) (content : Text) : Result :=
  evaluateRules (sum content) e.rules ⟨content, false, []⟩

end LiteAIG.Guardrail
