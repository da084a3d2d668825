import VerilogTree.Builder.Basic

/-!
# Runs of a builder

Calls as data, and what a sequence of them answers.
-/

namespace VerilogTree

inductive Call where
  | construct (production : Production)
  | extend (extension : Extension)
  | releaseAll

namespace Builder

/-- One call. Only a construction that succeeds answers with a node. -/
def call (b : Builder) : Call → Builder × Except Misuse (Option NodeRef)
  | .construct production =>
    let (after, answer) := b.construct production
    (after, answer.map some)
  | .extend extension =>
    let (after, answer) := b.extend extension
    (after, answer.map fun _ => none)
  | .releaseAll => (b.releaseAll, .ok none)

/-- The calls one after the other. A refused call does not stop the run. -/
def run (b : Builder) : List Call → Builder × List (Except Misuse (Option NodeRef))
  | [] => (b, [])
  | c :: rest =>
    let (after, answer) := b.call c
    let (final, answers) := after.run rest
    (final, answer :: answers)

end Builder

end VerilogTree
