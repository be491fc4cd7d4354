import DartModels.Settings

/-!
# Entity rules

One rule tells which classes are entities: a decorator, a base class or an interface.

* `EntityRule.ofSettings`: the rule of the settings; there has to be exactly one.
* `EntityRule.approves`: whether a class with given names is an entity.
-/

namespace DartModels

/-- Where the name of a rule is looked for. -/
inductive RuleSubject where
  | decorators
  | bases
  | interfaces
  deriving DecidableEq, Inhabited

/-- A rule: the name that a class has to carry, and where. -/
structure EntityRule where
  subject : RuleSubject
  value : Json
  deriving Inhabited

namespace EntityRule

/-- The setting of a subject. -/
def settingOf : RuleSubject → String
  | .decorators => "decorator"
  | .bases => "extends"
  | .interfaces => "implements"

/-- The subject of a setting. -/
def subjectOf (setting : String) : RuleSubject :=
  if setting = "decorator" then .decorators
  else if setting = "extends" then .bases
  else .interfaces

/-- The rule among several, of which exactly one has to be set. -/
def ofRules (rules : EntityRules) : Except Error EntityRule :=
  match rules.active with
  | [] => .error .noEntityRule
  | [(name, value)] => .ok ⟨subjectOf name, value⟩
  | several => .error (.severalEntityRules (several.map (·.1)))

/-- The rule of the settings. -/
def ofSettings (s : SourceSettings) : Except Error EntityRule := do
  ofRules (← s.rulesFor "active_rules")

/-- Whether a class with given names is an entity. -/
def approves (rule : EntityRule) (decorators bases interfaces : List String) : Bool :=
  let names :=
    match rule.subject with
    | .decorators => decorators
    | .bases => bases
    | .interfaces => interfaces
  names.any fun name => rule.value.same (.str name)

end EntityRule

end DartModels
