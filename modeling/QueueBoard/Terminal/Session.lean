import QueueBoard.Scalar.Float
import QueueBoard.Terminal.App
import QueueBoard.Terminal.Input
import QueueBoard.Terminal.ScreenId
/-!
# Sessions

The dashboard at work on a terminal: reports of the terminal come in one by one, moves of the
pointer wait for the next frame, messages are taken until none is left, and requests to read the
snapshots are answered by the loader before the next report.
-/

namespace QueueBoard.Terminal

/-- A dashboard on a terminal. -/
structure Session where
  app : App Float
  sources : Sources
  columns : Nat
  rows : Nat
  motion : MotionFilter := {}

namespace Session

variable {m : Type → Type} [Monad m] [FileStore m]

/-- Messages taken with all that follows from them, what the loader delivers on request included.
The loader delivers nothing that asks for it again. -/
def take (s : Session) (now : Duration) (actions : List (Action Float)) : m Session := do
  let (taken, app) := s.app.processAll now actions
  let requests := taken.filter (· matches .reload)
  let delivered ← requests.mapM fun _ => loadRound s.sources
  return { s with app := (app.processAll now delivered.flatten).2 }

/-- A session at its start: the first screen focused, the size told, the snapshots read. -/
def start (sources : Sources) (doubleClick columns rows : Nat) : m Session := do
  let app : App Float := (App.new ⟨0⟩ doubleClick).setFocus .first true
  let s : Session := { app, sources, columns, rows }
  s.take ⟨0⟩ (.resize columns rows :: (← loadRound sources))

/-- One event. -/
def onEvent (s : Session) (now : Duration) (event : Event) : m Session := do
  let (action, app) := s.app.onEvent now event
  { s with app }.take now action.toList

/-- Events in order; none is taken after the end. -/
def onEvents (s : Session) (now : Duration) (events : List Event) : m Session :=
  events.foldlM (fun s event => if s.app.running then s.onEvent now event else return s) s

/-- An event, after the moves of the pointer that it lets through. -/
def letThrough (s : Session) (now : Duration) (event : Event) : m Session := do
  let (events, motion) := s.motion.letThrough event
  { s with motion }.onEvents now events

/-- A report of the terminal. -/
def onInput (s : Session) (now : Duration) (input : RawInput) : m Session := do
  let s := match input with
    | .resize columns rows => { s with columns, rows }
    | _ => s
  match input.event? with
  | some event => s.letThrough now event
  | none => return s

/-- A frame: what waits for it is let through, and everything is drawn. -/
def frame (s : Session) (now : Duration) : m (Cells × Session) := do
  let s ← s.letThrough now .frame
  let (cells, app) := s.app.draw now s.columns s.rows
  return (cells, { s with app })

/-- What happens to a session. -/
inductive Step where
  | input (input : RawInput)
  /-- A file gets another content. -/
  | write (path text : String)
  /-- The next frame comes. -/
  | wait
  /-- Somebody looks at the terminal. -/
  | look

/-- One step; after each the next frame is drawn. Tells what is seen if somebody looks. -/
def step (s : Session) (now : Duration) : Step → m (Option Cells × Session)
  | .input input => do
    let s ← s.onInput now input
    return (none, (← s.frame now).2)
  | .write path text => do
    let _ ← FileStore.write path text
    return (none, s)
  | .wait => return (none, (← s.frame now).2)
  | .look => do
    let (cells, s) ← s.frame now
    return (some cells, s)

/-- A whole session in which all happens at once: what is seen whenever somebody looks. -/
def play (sources : Sources) (doubleClick columns rows : Nat) (steps : List Step) :
    m (List Cells) := do
  let s ← start sources doubleClick columns rows
  let (_, s) ← s.frame ⟨0⟩
  let (seen, _) ← steps.foldlM (fun (seen, s) next => do
    let (cells, s) ← step s ⟨0⟩ next
    return (seen ++ cells.toList, s)) (([] : List Cells), s)
  return seen

end Session

end QueueBoard.Terminal
