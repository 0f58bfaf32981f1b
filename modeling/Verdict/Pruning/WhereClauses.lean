import Verdict.Closure
import Verdict.Command

/-! Which where-clauses a body needs.

The assumption of a where-clause relates its proxy to every other variable that it
mentions, and each of those to the proxy. Whatever is related to a live variable, at any
distance, is live as well; an assumption stays if its proxy is live in the end, and every
other command stays. -/
namespace Verdict.WhereClauses

/-- The variables of the commands that are no assumptions of where-clauses. -/
def liveVariables (blocks : List Block) : List String :=
  ((Block.commands blocks).filter (·.proxy?.isNone)).flatMap Cmd.mentioned

/-- A proxy, with the other variables that its assumption mentions. -/
structure Link where
  proxy : String
  others : List String
  deriving DecidableEq, Repr

def link? (c : Cmd) : Option Link :=
  c.proxy?.map fun proxy => ⟨proxy, c.mentioned.filter (· ≠ proxy)⟩

def links (blocks : List Block) : List Link := (Block.commands blocks).filterMap link?

/-- What one link relates a variable to. -/
def Link.related (l : Link) (v : String) : List String :=
  (if v = l.proxy then l.others else []) ++ (if v ∈ l.others then [l.proxy] else [])

/-- What the links relate a variable to. -/
def related (ls : List Link) (v : String) : List String := ls.flatMap (·.related v)

/-- All that is live once the links have been followed, each name once. -/
def spread (ls : List Link) (live : List String) : List String :=
  let names := live ++ ls.flatMap fun l => l.proxy :: l.others
  Closure.reach (related ls) names.eraseDups live

/-- Keeps a command unless it is the assumption of a where-clause whose proxy is dead. -/
def keeps (live : List String) (c : Cmd) : Bool := c.proxy?.all (· ∈ live)

/-- The live variables in the end, and the blocks with the assumptions that stay. -/
def trim (blocks : List Block) (live : List String) : List String × List Block :=
  let live := spread (links blocks) live
  (live, blocks.map fun b => { b with cmds := b.cmds.filter (keeps live) })

end Verdict.WhereClauses
