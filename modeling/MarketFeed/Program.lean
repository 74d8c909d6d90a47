import MarketFeed.Console
import MarketFeed.Layout.Description
import MarketFeed.Options
import MarketFeed.Recovery.Run
import MarketFeed.Settings.Load
import MarketFeed.Text.Shown

/-!
The program from its arguments to its exit. Files and variables are read first, in a fixed order and
through whatever reads them; the run itself is played on a machine that is given as data.
-/
namespace MarketFeed

inductive Failure where
  | options (e : OptionsError)
  | settings (e : SettingsError)
  | layout (path : String) (e : LayoutError)
  | incomplete (e : SettingsError)
  | join (e : Net.JoinError)
  | recovery (e : RecoveryError)
  deriving DecidableEq, Repr

namespace Failure

def causes : Failure → List String
  | options e => [e.message]
  | settings e => ["failed to load config", e.message]
  | layout path e => [s!"failed to load layout {path}", e.message]
  | incomplete e => [e.message]
  | join e => [e.message]
  | recovery e => "recovery failed" :: e.causes

def message (f : Failure) : String := ": ".intercalate f.causes

/- The message as it is written out. Logging starts once the options are known, so a complaint about
them is no log line. -/
def report : Failure → String
  | options e => e.message
  | f => Text.logged f.message

def complaint : Failure → String
  | options e => s!"moldfeedd: {e.message}\nRun 'moldfeedd -h' for usage.\n"
  | f => s!"ERROR moldfeedd: {f.report}\n"

end Failure

inductive Job where
  | listen
  | recover (server : Net.Endpoint) (replyWait : Nat) (plan : RecoveryPlan)
  deriving DecidableEq, Repr

structure Task where
  console : Console
  pipeline : Pipeline
  target : Net.MulticastTarget
  receiveBuffer : Nat
  job : Job
  deriving DecidableEq, Repr

namespace Task

def plan (s : Settings) (o : Options) : RecoveryPlan :=
  ⟨o.startSequence, o.recoveryTotal, s.recovery.chunkSize, s.recovery.sessionWait⟩

def ofSettings (s : Settings) (o : Options) (table : Table) : Except SettingsError Task := do
  let target ← s.multicast
  let job ← if o.gapFill then
      s.rerequester.map fun server => Job.recover server s.recovery.replyWait (plan s o)
    else .ok .listen
  return ⟨⟨o.verbose⟩, .fresh table o.filter o.maxMessages, target, s.recovery.receiveBuffer, job⟩

def prepare {m : Type → Type} [Monad m] (read : String → m (Except FileFault Bytes))
    (lookup : String → Option String) (o : Options) : m (Except Failure Task) := do
  let path := Settings.path lookup
  match Settings.load path (← read path) lookup with
  | .error e => return .error (.settings e)
  | .ok s =>
    match Table.load s.layoutPath (← read s.layoutPath) with
    | .error e => return .error (.layout s.layoutPath e)
    | .ok table => return (ofSettings s o table).mapError .incomplete

end Task

/- Everything a run meets: files, variables, sockets, what arrives on the feed once it is joined,
the answers to its rerequests, and whether a user ends it when nothing arrives any more. -/
structure Machine where
  files : Files
  environment : List (String × String)
  host : Net.Host
  live : List Reception
  replies : List (List Reply)
  interrupted : Bool
  deriving DecidableEq, Repr

/- What a run leaves behind. A run without an exit code is still waiting. -/
structure Exit where
  code : Option Nat
  output : String
  failure : Option Failure
  requests : List Bytes
  deriving DecidableEq, Repr

namespace Exit

def failed (f : Failure) : Exit := ⟨some 1, "", some f, []⟩

def complaint (e : Exit) : String := (e.failure.map Failure.complaint).getD ""

end Exit

namespace Machine

/- The server's side of the rerequests: a machine that cannot send fails the first one. -/
def link (m : Machine) (server : Net.Endpoint) : RerequestLink :=
  .fresh (.script m.replies
    ((m.host.sendFault? server headerSize).map fun fault => (0, .socket fault)))

def listen (m : Machine) (task : Task) : Exit :=
  let run := (LiveFeed.fresh task.pipeline).run m.live
  let code := if run.returned || m.interrupted then some 0 else none
  ⟨code, task.console.transcript run.events, none, []⟩

def recover (m : Machine) (task : Task) (server : Net.Endpoint) (plan : RecoveryPlan) : Exit :=
  let run := MarketFeed.recover plan task.pipeline m.live (m.link server)
  let output := task.console.transcript run.events
  match run.result with
  | .waiting => ⟨none, output, none, run.link.sent⟩
  | .failed e => ⟨some 1, output, some (.recovery e), run.link.sent⟩
  | .finished report =>
    ⟨some (if report.outcome.isSuccess then 0 else 1), output, none, run.link.sent⟩

def perform (m : Machine) (task : Task) : Exit :=
  match m.host.join task.target with
  | .error e => .failed (.join e)
  | .ok () =>
    match task.job with
    | .listen => m.listen task
    | .recover server _ plan => m.recover task server plan

def prepare (m : Machine) (o : Options) : Except Failure Task :=
  Id.run (Task.prepare (fun path => pure (m.files.read path)) (m.environment.lookup ·) o)

def run (m : Machine) (arguments : List String) : Exit :=
  match Command.parse arguments with
  | .error e => .failed (.options e)
  | .ok .help => ⟨some 0, usage, none, []⟩
  | .ok (.run o) =>
    match m.prepare o with
    | .error f => .failed f
    | .ok task => m.perform task

end Machine
end MarketFeed
