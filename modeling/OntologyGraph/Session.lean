import OntologyGraph.Command.Dispatch

/-!
Sessions: the statements of a text are carried out in order, and each reports a message.
-/

namespace OntologyGraph

open Store

/-- What a session reports about a statement, or about a text that is no script. -/
inductive Message where
  | outcome (outcome : Outcome)
  | rejected (fault : CommandFault)
deriving DecidableEq

def Message.text : Message → String
  | .outcome o => o.text
  | .rejected fault => fault.message

namespace Session

/-- The messages of a run in order, and the fault that ended it early, if one did. -/
structure Report where
  messages : List Message
  failure : Option CommandFault := none
deriving DecidableEq

def Report.cons (message : Message) (r : Report) : Report :=
  { r with messages := message :: r.messages }

/-- What one statement reports: a statement that stands for no command is rejected, and so is a
command whose fault lies in the text. -/
def runStatement (settings : OntologySettings) (statement : Script.Statement) :
    Action CommandFault Message :=
  match Command.ofStatement statement with
  | .error fault => return .rejected fault
  | .ok command => do
    match ← Action.attempt (command.run settings) with
    | .ok outcome => return .outcome outcome
    | .error fault => if fault.isUser then return .rejected fault else throw fault

/-- Carries out statements in order. A failure of the store ends the run. -/
def runStatements (settings : OntologySettings) : Script → Program Report
  | [] => return { messages := [] }
  | statement :: statements => do
    match ← (runStatement settings statement).run with
    | .error fault => return { messages := [], failure := some fault }
    | .ok message => return (← runStatements settings statements).cons message

/-- Carries out the statements of a text. A text that is no script is rejected as a whole. -/
def run (settings : OntologySettings) (source : String) : Program Report :=
  match Script.parse source with
  | .error fault => return { messages := [.rejected (.malformed fault)] }
  | .ok script => runStatements settings script

end Session

end OntologyGraph
