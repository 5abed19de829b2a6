/-!
# Scheduling the optimizations

Jobs run in turns on one agenda, and at most a given number of them run at a time. A job asks for a slot at its first turn; if none is
free, or others are in line already, it stands in line, and whoever gives back a slot hands it to the first in line. A running job
waits, finishes or fails at each of its turns. The first failure that is heard aborts the run: jobs that have not started never do,
and running ones are cancelled at their next turn.

A run is a sequence of steps, each deciding what the job whose turn it is does (`State.step`). `run` decides by the number of turns that
each job takes.
-/

namespace IconForge.Schedule

/-- Where a job stands. -/
inductive Phase where
  /-- It has not had its first turn. -/
  | fresh
  | inLine
  /-- It has been handed a slot and has not had its turn since. -/
  | granted
  /-- It stood in line when the run was aborted. -/
  | leaving
  | running
  | done
  deriving Repr, DecidableEq

/-- An entry of the agenda. -/
inductive Turn where
  | job (i : Nat)
  /-- The failure of a job is heard. -/
  | failure (i : Nat)
  deriving Repr, DecidableEq

/-- What is seen of a run from outside. -/
inductive Event where
  | started (i : Nat)
  | finished (i : Nat)
  | failed (i : Nat)
  | cancelled (i : Nat)
  deriving Repr, DecidableEq

/-- What a running job does at its turn. -/
inductive Move where
  | wait
  | finish
  | fail
  deriving Repr, DecidableEq

/-- The state of a run. -/
structure State where
  phases : List Phase
  /-- The jobs in line, those that have been handed a slot included. -/
  line : List Nat
  free : Nat
  agenda : List Turn
  aborted : Bool
  /-- The jobs whose failures were heard, in order. -/
  heard : List Nat
  /-- What has happened, the last event first. -/
  events : List Event
  deriving Repr, DecidableEq

namespace State

/-- All jobs are fresh, and their first turns come in order. -/
def initial (jobs slots : Nat) : State :=
  { phases := List.replicate jobs .fresh, line := [], free := slots, agenda := (List.range jobs).map .job, aborted := false,
    heard := [], events := [] }

/-- Where a job stands; there is nothing to do for a job that does not exist. -/
def phase (st : State) (i : Nat) : Phase := st.phases[i]?.getD .done

/-- Moves a job to another phase. -/
def setPhase (st : State) (i : Nat) (p : Phase) : State := { st with phases := st.phases.set i p }

/-- Puts a turn at the end of the agenda. -/
def enqueue (st : State) (t : Turn) : State := { st with agenda := st.agenda ++ [t] }

/-- Records an event. -/
def emit (st : State) (e : Event) : State := { st with events := e :: st.events }

/-- Hands a free slot to the first job in line that has none. -/
def wakeNext (st : State) : State :=
  match st.line.find? (fun i => st.phase i == .inLine) with
  | none => st
  | some i => { (st.setPhase i .granted).enqueue (.job i) with free := st.free - 1 }

/-- Gives back a slot. -/
def release (st : State) : State := { st with free := st.free + 1 }.wakeNext

/-- A running job does what the move says. -/
def act (st : State) (i : Nat) : Move → State
  | .wait => (st.setPhase i .running).enqueue (.job i)
  | .finish => ((st.emit (.finished i)).setPhase i .done).release
  | .fail => (((st.emit (.failed i)).setPhase i .done).release).enqueue (.failure i)

/-- A job that holds a slot starts, and goes on at once. -/
def start (st : State) (i : Nat) (m : Move) : State := (st.emit (.started i)).act i m

/-- Aborts the run: jobs in line leave it at their next turn. -/
def abort (st : State) : State :=
  let waiting := (List.range st.phases.length).filter fun i => st.phase i == .inLine
  { st with
    aborted := true
    phases := st.phases.map fun p => if p = .inLine then .leaving else p
    agenda := st.agenda ++ waiting.map .job }

/-- A job has its turn. -/
def jobTurn (st : State) (i : Nat) (m : Move) : State :=
  match st.phase i with
  | .fresh =>
    if st.aborted then st.setPhase i .done
    else if 0 < st.free && st.line.isEmpty then { st with free := st.free - 1 }.start i m
    else { st.setPhase i .inLine with line := st.line ++ [i] }
  | .granted =>
    let st := { st with line := st.line.filter (· != i) }
    if st.aborted then (st.setPhase i .done).release
    else (if 0 < st.free then st.wakeNext else st).start i m
  | .leaving => { st.setPhase i .done with line := st.line.filter (· != i) }
  | .running => if st.aborted then ((st.emit (.cancelled i)).setPhase i .done).release else st.act i m
  | .inLine | .done => st

/-- A failure is heard; the first one aborts the run. -/
def failureTurn (st : State) (i : Nat) : State :=
  let st := if st.aborted then st else st.abort
  { st with heard := st.heard ++ [i] }

/-- The first turn of the agenda is taken. The move says what the job does, if it is a job's turn and the job is running then. -/
def step (st : State) (m : Move) : State :=
  match st.agenda with
  | [] => st
  | .job i :: rest => { st with agenda := rest }.jobTurn i m
  | .failure i :: rest => { st with agenda := rest }.failureTurn i

end State

/-- A job: how many turns it waits, and whether it fails then. -/
structure Job where
  turns : Nat
  fails : Bool
  deriving Repr, DecidableEq

/-- What a job does when it has waited some turns already. -/
def Job.move (j : Job) (waited : Nat) : Move :=
  if waited < j.turns then .wait else if j.fails then .fail else .finish

/-- How many turns of a job that was running have passed, counted from the state before and behind a step. -/
def countWait (waited : List Nat) (before : State) (m : Move) : List Nat :=
  match before.agenda, m with
  | .job i :: _, .wait => if (before.step m).phase i = .running then waited.modify i (· + 1) else waited
  | _, _ => waited

/-- The move of the job whose turn comes next. -/
def nextMove (jobs : List Job) (waited : List Nat) (st : State) : Move :=
  match st.agenda with
  | .job i :: _ => (jobs[i]?.getD ⟨0, false⟩).move (waited[i]?.getD 0)
  | _ => .finish

/-- Takes turns until the agenda is empty. -/
def runTurns (jobs : List Job) : Nat → List Nat → State → State
  | 0, _, st => st
  | fuel + 1, waited, st =>
    if st.agenda.isEmpty then st
    else
      let m := nextMove jobs waited st
      runTurns jobs fuel (countWait waited st m) (st.step m)

/-- More turns than a run can take: each job has a first turn, one with a slot or on leaving, its own turns, and one in which its
failure is heard. -/
def budget (jobs : List Job) : Nat := (jobs.map fun j => j.turns + 4).foldr (· + ·) 0

/-- The state in which the run of some jobs ends. -/
def run (slots : Nat) (jobs : List Job) : State :=
  runTurns jobs (budget jobs) (jobs.map fun _ => 0) (State.initial jobs.length slots)

/-- The events of a run, in order. -/
def State.history (st : State) : List Event := st.events.reverse

/-- The jobs that have started, in order. -/
def State.started (st : State) : List Nat :=
  st.history.filterMap fun
    | .started i => some i
    | _ => none

/-- The greatest number of jobs that were running at a time, where `n` were running before. -/
def peak (n : Nat) : List Event → Nat
  | [] => n
  | .started _ :: rest => max n (peak (n + 1) rest)
  | _ :: rest => max n (peak (n - 1) rest)

end IconForge.Schedule
