import OntologyGraph.Session
import OntologyGraph.Settings
import OntologyGraph.Store.Canned

/-!
The shell. Every line of the input is a script of its own; with the argument `script` the whole
input is one. Scripts run on a graph without nodes that takes every write, so the shell shows which
statements are understood and what they do to an empty graph.
-/

namespace OntologyGraph.Shell

open Store

def prompt : String := "⬤  "

/-- A graph without nodes. New identifiers are numbered in the order in which they are drawn. -/
def emptyGraph : Canned where
  supply := { stamps := fun n => { id := ⟨BitVec.ofNat 128 n⟩, now := ⟨0, 0, by decide⟩ } }

/-- The settings of the environment. -/
def readSettings : IO Settings := do
  let found ← Settings.variableNames.filterMapM fun name => do
    return (← IO.getEnv name).map fun value => (name, value)
  return Settings.ofVariables fun name => found.lookup name

/-- Outcomes go to the output; what is rejected goes to the error output, and so does the fault
that ended the run. -/
def printReport (report : Session.Report) : IO Unit := do
  for message in report.messages do
    match message with
    | .outcome outcome => IO.println outcome.text
    | .rejected fault => IO.eprintln fault.message
  if let some fault := report.failure then IO.eprintln fault.message

/-- Runs one script and gives back the graph that it leaves. -/
def runScript (settings : OntologySettings) (source : String) (graph : Canned) : IO Canned := do
  let (report, graph) := (Session.run settings source).run Canned.backend graph
  printReport report
  return graph

/-- Runs lines until the input ends. A blank line is skipped. -/
partial def runLines (settings : OntologySettings) (input : IO.FS.Stream) (graph : Canned) :
    IO Unit := do
  IO.print prompt
  (← IO.getStdout).flush
  let line := (← input.getLine).toList
  if line.isEmpty then return
  if line.all Text.isBlank then runLines settings input graph
  else
    let source := String.ofList (line.filter (· ≠ '\n'))
    runLines settings input (← runScript settings source graph)

/-- All that is left of the input. -/
partial def readAll (input : IO.FS.Stream) (before : String) : IO String := do
  let line ← input.getLine
  if line.isEmpty then return before else readAll input (before ++ line)

def run (args : List String) : IO Unit := do
  let settings ← readSettings
  let input ← IO.getStdin
  if args = ["script"] then
    discard (runScript settings.ontology (← readAll input "") emptyGraph)
  else runLines settings.ontology input emptyGraph

end OntologyGraph.Shell

def main (args : List String) : IO Unit :=
  OntologyGraph.Shell.run args
