import ThreadEngine.World.Host
import ThreadEngine.Session.Command
import ThreadEngine.Body.Program
set_option autoImplicit false

/-!
# Sessions

A session drives a world by commands.  A command is carried out in three parts: what the host does
at once, the run until every context has come to rest, and the reply, which may depend on how that
run went.  Besides its reply a command shows what was noted while it was carried out.
-/

namespace ThreadEngine

/-- A session: what is loaded, what threads are built from, the registries seen so far, and the
world. -/
structure Session where
  program : Program
  envs : List EnvSpec
  seen : List RegistryId
  world : World Activation

/-- What remains to be said once every context has come to rest. -/
inductive Pending where
  | reply (r : Reply)
  /-- a call on the host's own context -/
  | ran
  /-- a body on the host's own context -/
  | started
  | created (thread : ThreadId)
  | waited

namespace Session

/-- The interpreter of the session's program. -/
def interpreter (s : Session) : Interpreter Activation := s.program.interpreter

/-- The same session with another world, and something to be said at once. -/
def saying (s : Session) (w : World Activation) (r : Reply) : Pending × Session :=
  (.reply r, { s with world := w })

/-- The same session, and something to be said at once. -/
def replying (s : Session) (r : Reply) : Pending × Session := (.reply r, s)

/-! ## Names -/

/-- Looks up a registry and goes on with it. -/
def withRegistry (s : Session) (name : RegistryName)
    (go : RegistryId → Pending × Session) : Pending × Session :=
  match name with
  | .seen i =>
    match s.seen[i]? with
    | some r => go r
    | none => s.replying .unknown
  | .global =>
    match s.world.globalRegistry with
    | .ok r => go r
    | .error e => s.replying (.error e)

/-- Looks up an environment, as it is now, and goes on with it. -/
def withEnv (s : Session) (env : Nat)
    (go : World.Env → World Activation → Pending × Session) : Pending × Session :=
  match s.envs[env]? with
  | none => s.replying .unknown
  | some spec =>
    match spec.registry with
    | .seen i =>
      match s.seen[i]? with
      | some r => go ⟨r, spec.maxDepth, spec.dialect⟩ s.world
      | none => s.replying .unknown
    | .global =>
      match s.world.globalEnv spec.dialect with
      | (.ok e, w) => go e w
      | (.error e, w) => s.saying w (.error e)

/-- Looks up a method and goes on with it. -/
def withMethod (s : Session) (method : Nat) (go : MethodRef → Pending × Session) :
    Pending × Session :=
  match s.program.methods[method]? with
  | some m => go m
  | none => s.replying .unknown

/-- Goes on with a thread that the host holds. -/
def withHeld (s : Session) (t : ThreadId) (absent : Reply) (go : Thread → Pending × Session) :
    Pending × Session :=
  match s.world.held? t with
  | some thread => go thread
  | none => s.replying absent

/-- Shows a thread. -/
def showing (s : Session) (w : World Activation) (t : ThreadId) : Pending × Session :=
  match w.info? t with
  | some i => s.saying w (.info i)
  | none => s.saying w .unknown

/-- Remembers a registry, or reports why there is none. -/
def seeing (s : Session) (w : World Activation) : Except Error RegistryId → Pending × Session
  | .ok r => (.reply (.number s.seen.length), { s with world := w, seen := s.seen ++ [r] })
  | .error e => s.saying w (.error e)

/-! ## What is done at once -/

/-- What the host does at once. -/
def undertake (s : Session) : Command → Pending × Session
  | .application env method receiver =>
    s.withMethod method fun m => s.withEnv env fun e w =>
      let (t, w') := w.build .application m [receiver] e
      s.showing w' t
  | .applicationArgs env method args =>
    s.withMethod method fun m => s.withEnv env fun e w =>
      match w.buildApplication m args e with
      | (.ok t, w') => s.showing w' t
      | (.error err, w') => s.saying w' (.error err)
  | .main env method args =>
    s.withMethod method fun m => s.withEnv env fun e w =>
      let (t, w') := w.build .main m args e
      s.showing w' t
  | .info t => s.showing s.world t
  | .setPc t pc =>
    s.withHeld t .gone fun _ => s.saying (s.world.setPc t pc) (.number pc)
  | .run t method args =>
    s.withHeld t .goneRun fun _ => s.withMethod method fun m =>
      (.ran, { s with world := s.world.hostCall s.interpreter t m args })
  | .start t =>
    s.withHeld t .goneRun fun _ =>
      (.started, { s with world := s.world.hostStart s.interpreter t })
  | .frames t => s.withHeld t .gone fun thread => s.replying (.frames thread.frames.frames.reverse)
  | .frameOp t op =>
    s.withHeld t .gone fun thread =>
      s.saying (s.world.editFrame t op) (.frame (op.runTop thread.frames).1)
  | .describe t =>
    s.withHeld t .gone fun thread =>
      match s.world.handle? thread.id with
      | some h => s.replying (.text (thread.diagnostic h))
      | none => s.replying .unknown
  | .describeHandle t =>
    match s.world.handle? t with
    | some h => s.replying (.text (h.diagnostic t))
    | none => s.replying .unknown
  | .describeEnv env => s.withEnv env fun e w => s.saying w (.text e.diagnostic)
  | .drop t => s.saying (s.world.takeHeld t) (.flag (s.world.held? t).isSome)
  | .create t object =>
    if t < s.world.strands.length then
      s.withHeld t (.launch .gone) fun thread =>
        (.created thread.id, { s with world := s.world.createHeld t object })
    else s.replying (.launch .noThread)
  | .join t => s.replying (.launch (s.world.launchReportAt t))
  | .unpark t =>
    let (u, w) := s.world.unpark t
    s.saying w (.unparking u)
  | .unparkAndWait name ts =>
    s.withRegistry name fun r =>
      let w := ts.foldl (fun w t => (w.unpark t).2) s.world
      (.waited, { s with world := w.beginWait r })
  | .add name t =>
    s.withRegistry name fun r =>
      if t < s.world.strands.length then s.saying (s.world.add .host r t) .done
      else s.replying .unknown
  | .transition name t next =>
    s.withRegistry name fun r =>
      let (result, w) := s.world.transition .host r t next
      s.saying w (.transition result)
  | .stateOf name t =>
    s.withRegistry name fun _ =>
      match s.world.state? t with
      | some st => s.replying (.state st)
      | none => s.replying .unknown
  | .wait name =>
    s.withRegistry name fun r => (.waited, { s with world := s.world.beginWait r })
  | .tally name =>
    s.withRegistry name fun r =>
      match s.world.tally? r with
      | some t => s.replying (.tally t)
      | none => s.replying .unknown
  | .installRegistry =>
    let (r, w) := s.world.installRegistry .host
    s.seeing w r
  | .globalRegistry => s.seeing s.world s.world.globalRegistry
  | .removeRegistry =>
    let (r, w) := s.world.removeRegistry .host
    s.seeing w r
  | .sameRegistry a b =>
    s.withRegistry a fun r => s.withRegistry b fun q => s.replying (.flag (r == q))
  | .installConfig c =>
    match s.world.config.install c with
    | (.ok (), cell) => s.saying { s.world with config := cell } .done
    | (.error e, cell) => s.saying { s.world with config := cell } (.error e)
  | .config =>
    let (c, cell) := s.world.config.read
    s.saying { s.world with config := cell } (.number c.maxStackDepth)
  | .output => s.replying (.ints s.world.output)

/-! ## The reply -/

/-- Takes back the thread that the host worked on, and says how that ended. -/
def takeBack (s : Session) (say : Completion → Thread → Reply) : Reply × Session :=
  (match s.world.engaged? with
    | some (thread, some c) => say c thread
    | some (_, none) | none => .unfinished,
    { s with world := s.world.disengage })

/-- What is said once every context has come to rest. -/
def finish (s : Session) : Pending → Reply × Session
  | .reply r => (r, s)
  | .ran => s.takeBack fun c thread => .ran c thread.pc thread.depth
  | .started =>
    s.takeBack fun c thread =>
      .started c thread.pc thread.depth ((s.world.state? thread.id).getD .running)
        thread.args.length
  | .created t => (.launch (s.world.launchReport t), s)
  | .waited =>
    let w := s.world.expire
    ((w.waitResult?.map Reply.flag).getD .unfinished, { s with world := w.endWait })

/-! ## The log -/

/-- Whether a note is shown: an abort only on the context of a launched thread, an event only if
events are wanted. -/
def isShown (traced : Bool) : Ctx × Note → Bool
  | (_, .event _) => traced
  | (.body _, .abort _) => true
  | (_, .abort _) => false
  | (_, .remark _) => true

/-- Whether a context's notes are held back: those of a creator are, until it is done. -/
def isHeldBack (w : World Activation) : Ctx → Bool
  | .creator t =>
    match w.strands[t]?.bind Strand.creation with
    | some (.done _) => false
    | _ => true
  | _ => false

/-- The context under which notes are shown: a creator stands for the place where it was asked. -/
def shownAs (w : World Activation) : Ctx → Ctx
  | .creator t => .creator ((w.launchPlace? t).getD t)
  | c => c

/-- Notes in order, gathered by context. -/
def gather (notes : List (Ctx × Note)) : List (Ctx × List Note) :=
  (notes.map Prod.fst).eraseDups.map fun c =>
    (c, (notes.filter (·.1 == c)).map Prod.snd)

/-- Takes out of the journal what can be shown by now. -/
def takeLog (s : Session) (traced : Bool) : List (Ctx × List Note) × Session :=
  let (back, out) := s.world.journal.partition (isHeldBack s.world ·.1)
  (gather ((out.reverse.filter (isShown traced)).map fun (c, n) => (shownAs s.world c, n)),
    { s with world := { s.world with journal := back } })

/-- What a command shows. -/
structure Report where
  reply : Reply
  log : List (Ctx × List Note)

/-- Carries out a command, with at most `fuel` steps of the world. -/
def carryOut (fuel : Nat) (traced : Bool) (s : Session) (c : Command) : Report × Session :=
  let (pending, s₁) := s.undertake c
  let s₂ := { s₁ with world := s₁.world.rest s₁.interpreter fuel .host }
  let (reply, s₃) := s₂.finish pending
  let (log, s₄) := s₃.takeLog traced
  (⟨reply, log⟩, s₄)

/-- Carries out commands in turn. -/
def carryOutAll (fuel : Nat) (traced : Bool) (s : Session) : List Command → List Report
  | [] => []
  | c :: cs =>
    let (report, s') := s.carryOut fuel traced c
    report :: s'.carryOutAll fuel traced cs

end Session

/-- What a session is to do. -/
structure Scenario where
  declarations : List Declaration
  registries : Nat
  envs : List EnvSpec
  commands : List Command
  traced : Bool
  /-- the process-wide configuration at the beginning -/
  config : ConfigCell

namespace Scenario

/-- The session of a scenario at its beginning. -/
def session (sc : Scenario) (p : Program) : Session :=
  { program := p
    envs := sc.envs
    seen := List.range sc.registries
    world := World.ofRegistries sc.registries sc.config }

/-- Runs a scenario; a program that cannot be loaded decides everything. -/
def run (fuel : Nat) (sc : Scenario) : Outcome (List Session.Report) :=
  match Program.empty.load sc.declarations with
  | .ok p => .ok ((sc.session p).carryOutAll fuel sc.traced sc.commands)
  | .error e => .error e
  | .abort a => .abort a

end Scenario

end ThreadEngine
