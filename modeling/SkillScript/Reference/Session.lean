import SkillScript.Reference.Context

/-!
# Sessions

A session answers queries from its current context, which can be replaced while a query that began
earlier goes on with the context it holds. A load that fails changes nothing.
-/

namespace SkillScript

/-- The current context and the one that is held. -/
structure Session where
  current : Context
  held : Option Context

namespace Session

/-- A session that starts with a context. -/
def of (c : Context) : Session := ⟨c, none⟩

/-- The session with its current context held. -/
def hold (s : Session) : Session := { s with held := some s.current }

/-- The held context, when it is asked for and there is one, and else the current context. -/
def context (s : Session) (held : Bool) : Context :=
  if held then s.held.getD s.current else s.current

/-- The session with another current context. -/
def replace (s : Session) (c : Context) : Session := { s with current := c }

/-- The session with the context of a bundle, or with its old one and the reason for that. -/
def reload (s : Session) (b : Bundle) : Session × Option LoadError :=
  match Context.build b with
  | .ok c => (s.replace c, none)
  | .error e => (s, some e)

end Session

end SkillScript
