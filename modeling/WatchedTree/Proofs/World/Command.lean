import WatchedTree.Proofs.Path.Segments
import WatchedTree.World.Commands

/-!
Runs of a world: what its user, the remote side and the clock do to it, one command after the other.
-/
namespace WatchedTree

/-- One thing that is done to a world. -/
inductive Command where
  | create (path : Path) (data : Payload) (owner : Int)
  | setData (path : Path) (data : Payload)
  | delete (path : Path)
  | replaceSilently (path : Path) (data : Payload)
  | failReads (path : Path)
  | healReads (path : Path)
  | refuseSessions (refusing : Bool)
  | announce (state : KeeperState)
  | expireSessions
  | hold (path : Path)
  | release (hold : HoldId)
  /-- Runs the task at the front of the queue. -/
  | step
  | round
  | advance (span : Span)
  | occur (event : Event)
  | startConnection
  | acquire
  | closeConnection
  | pollFailure
  | readCounters
  | build (path : Path) (calls : List BuilderCall)
  | start (cache : CacheId)
  | closeCache (cache : CacheId)
  | refresh (cache : CacheId) (path : Path)
  | refreshAll (cache : CacheId)
  | readToken (token : ChannelId)
  | cancelToken (token : ChannelId)
  | listen (cache : CacheId) (listener : Listener)
  | unlisten (cache : CacheId) (registration : RegistrationId)
  | onError (cache : CacheId) (listener : Listener)
  | offError (cache : CacheId) (registration : RegistrationId)
  | get (cache : CacheId) (path : Path)
  | clear (cache : CacheId) (path : Path)
  | clearAll (cache : CacheId)
  | clearDataIf (cache : CacheId) (path : Path) (version : Int)

namespace Command

/-- The path that a command names, if it names one. -/
def path? : Command → Option Path
  | create path _ _ | setData path _ | delete path | replaceSilently path _ | failReads path
  | healReads path | hold path | build path _ | refresh _ path | get _ path | clear _ path
  | clearDataIf _ path _ => some path
  | occur event => event.path
  | _ => none

/-- Holds if the path that the command names, if any, is valid. -/
def IsValid (command : Command) : Prop := ∀ path ∈ command.path?, path.IsValid

instance (command : Command) : Decidable command.IsValid :=
  inferInstanceAs (Decidable (∀ path ∈ command.path?, path.IsValid))

end Command

namespace World

/-- The world after a command. -/
def obey (world : World) : Command → World
  | .create path data owner => (world.create path data owner).2
  | .setData path data => (world.setData path data).2
  | .delete path => (world.delete path).2
  | .replaceSilently path data => world.replaceSilently path data
  | .failReads path => world.failReads path
  | .healReads path => world.healReads path
  | .refuseSessions refusing => world.refuseSessions refusing
  | .announce state => world.announce state
  | .expireSessions => world.expireSessions
  | .hold path => (world.hold path).2
  | .release hold => world.release hold
  | .step => world.step
  | .round => world.round
  | .advance span => world.advance span
  | .occur event => world.occur event
  | .startConnection => world.startConnection.2
  | .acquire => world.acquire.2
  | .closeConnection => world.closeConnection.2
  | .pollFailure => world.pollFailure.2
  | .readCounters => world.readCounters.2
  | .build path calls => (world.build path calls).2
  | .start cache => (world.start cache).2
  | .closeCache cache => world.closeCache cache
  | .refresh cache path => (world.refresh cache path).2
  | .refreshAll cache => (world.refreshAll cache).2
  | .readToken token => (world.readToken token).2
  | .cancelToken token => world.cancelToken token
  | .listen cache listener => (world.listen cache listener).2
  | .unlisten cache registration => (world.unlisten cache registration).2
  | .onError cache listener => (world.onError cache listener).2
  | .offError cache registration => (world.offError cache registration).2
  | .get cache path => (world.get cache path).2
  | .clear cache path => (world.clear cache path).2
  | .clearAll cache => world.clearAll cache
  | .clearDataIf cache path version => (world.clearDataIf cache path version).2

/-- The world after some commands, one after the other. -/
def obeyAll (world : World) (commands : List Command) : World := commands.foldl obey world

@[simp] theorem obeyAll_nil (world : World) : world.obeyAll [] = world := rfl

@[simp] theorem obeyAll_cons (world : World) (command : Command) (commands : List Command) :
    world.obeyAll (command :: commands) = (world.obey command).obeyAll commands := rfl

theorem obeyAll_append (world : World) (first second : List Command) :
    world.obeyAll (first ++ second) = (world.obeyAll first).obeyAll second :=
  List.foldl_append

/-! ## Caches that are built -/

theorem path_applyAll (path : Path) (calls : List BuilderCall) :
    (CacheBuilder.applyAll path calls).path = path := by
  have kept : ∀ builder : CacheBuilder, (calls.foldl CacheBuilder.apply builder).path =
      builder.path := by
    induction calls with
    | nil => exact fun _ => rfl
    | cons call others inductionHypothesis =>
        intro builder
        rw [List.foldl_cons, inductionHypothesis]
        cases call <;> rfl
  exact kept { path }

/-- A cache is built over the path that it was asked for, if that is valid. -/
theorem basePath_of_build {path : Path} {calls : List BuilderCall} {options : CacheOptions}
    (built : (CacheBuilder.applyAll path calls).build = .ok options) :
    options.basePath = path ∧ path.IsValid := by
  have samePath := path_applyAll path calls
  unfold CacheBuilder.build at built
  split at built
  · cases built
  next valid =>
    simp only [bind, Except.bind] at built
    split at built
    · cases built
    · split at built
      · cases built
      · split at built
        · cases built
        · cases built
          exact ⟨samePath, samePath ▸ valid⟩

end World

end WatchedTree
