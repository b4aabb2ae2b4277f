import RecordRules.Cache

/-!
# The rule engine

An engine compiles, combines and evaluates rules under one set of limits, with one cache.
-/

namespace RecordRules

structure Engine where
  limits : Limits
  cache : Cache

inductive Command
  | compile (text : String)
  | fetch (text : String)
  | combine (rules : List String)
  | evaluate (tree : Tree) (record : Json)
  | check (text : String) (record : Json)
  | clear

inductive Answer
  | tree (result : Except RuleError Tree)
  | compiled (result : Except RuleError Compiled)
  | verdict (result : Except RuleError Bool)
  | cleared

namespace Engine

def ofLimits (limits : Limits) : Engine := ⟨limits, .empty limits.cacheCapacity⟩

def create (limits : Limits) : Except RuleError Engine := do
  limits.validate.mapError .limits
  return ofLimits limits

def fetch (e : Engine) (text : String) : Except RuleError Compiled × Engine :=
  let (result, cache) := e.cache.fetch e.limits text
  (result, { e with cache })

/-- Compiles a text through the cache and evaluates the rule. -/
def check (e : Engine) (text : String) (record : Json) : Except RuleError Bool × Engine :=
  let (result, e) := e.fetch text
  (result.bind fun rule => (rule.tree.evaluate record).mapError .evaluation, e)

def perform (e : Engine) : Command → Answer × Engine
  | .compile text => (.tree (compile e.limits text), e)
  | .fetch text => (e.fetch text).map .compiled id
  | .combine rules => (.tree (combine e.limits rules), e)
  | .evaluate tree record => (.verdict ((tree.evaluate record).mapError .evaluation), e)
  | .check text record => (e.check text record).map .verdict id
  | .clear => (.cleared, { e with cache := e.cache.clear })

end Engine

end RecordRules
