import WatchedTree.Proofs.World.Recall

/-!
# Remote time in the caches

Every stat that a world knows stood in the tree at some moment of its run. As the tree only leads on
in time, a read that is not older than what is cached is never refused as stale; and as what is
cached gives way to nothing older, a path that stays cached never goes back in remote time, in
whatever order the fetches of it come to an end.
-/
namespace WatchedTree

namespace Store

variable {store : Store}

/-- A node that is offered need have a property only if it is not older than what it replaces. -/
theorem Keeps.upsert_of_not_older {property : Path → Node → Prop} {node : Node}
    (keeps : store.Keeps property) (now : Moment) (epoch : Epoch)
    (fits : (∀ old, store.peek now node.path = some old → node.isOlderThan old = false) →
      property node.path node) : (store.upsert now node epoch).2.Keeps property := by
  have answers := answers_upsert store now node epoch
  generalize store.upsert now node epoch = answer at answers ⊢
  cases answers with
  | deleted | stale => exact keeps
  | inserted _ vacant => exact keeps.write (fits (by simp [vacant])) now _
  | replaced _ live notOlder => exact keeps.write (fits (by simp [live, notOlder])) now _

/-- What stands no earlier in remote time than what is cached is not refused as stale. -/
theorem upsert_ne_stale {now : Moment} {node held : Node} {was is : Stat}
    (cached : store.peek now node.path = some held) (hadStat : held.stat = some was)
    (hasStat : node.stat = some is) (inOrder : was.instant ≤ is.instant) (epoch : Epoch) :
    (store.upsert now node epoch).1 ≠ .stale := by
  have notOlder : node.isOlderThan held = false := by
    rw [Node.isOlderThan, hadStat, hasStat]
    exact Stat.not_isOlderThan_iff.mpr inOrder
  have answers := answers_upsert store now node epoch
  generalize store.upsert now node epoch = answer at answers
  cases answers with
  | stale _ live older =>
      rw [cached] at live
      cases live
      rw [notOlder] at older
      cases older
  | deleted | inserted | replaced => exact Upsert.noConfusion

end Store

namespace World

/-- A property of paths and stats in the caches, by the options of each cache. -/
abbrev StatProperty := CacheId → CacheOptions → Path → Option Stat → Prop

/-- Every cached node has a property. -/
def Upholds (world : World) (property : StatProperty) : Prop :=
  ∀ (id : CacheId) (cache : Cache), world.caches[id]? = some cache →
    cache.store.Keeps fun path node => property id cache.options path node.stat

variable {world before after middle : World} {property : StatProperty} {id : CacheId}
  {cache : Cache} {visit : Visit} {path : Path}

theorem Upholds.recalls (upholds : before.Upholds property) (recalls : after.Recalls before) :
    after.Upholds property := by
  intro id later found
  rcases recalls.caches id later found with ⟨cache, present, known⟩ | empty
  · rw [known.options]
    exact (upholds id cache present).recalls known.store
  · refine ⟨empty ▸ Table.distinct_nil, ?_⟩
    intro path entry held
    rw [empty] at held
    cases held

theorem Upholds.setCache (upholds : world.Upholds property)
    (found : world.caches[id]? = some cache) {other : Cache}
    (keeps : other.store.Keeps fun path node => property id other.options path node.stat) :
    (world.setCache id other).Upholds property := by
  intro index later present
  by_cases isId : index = id
  · subst isId
    rw [getElem?_setCache found] at present
    cases present
    exact keeps
  · rw [World.setCache, List.getElem?_set_ne (Ne.symm isId)] at present
    exact upholds index later present

/-- The node that is committed need have the property only if it is not older than what it
replaces. -/
theorem Upholds.commit (upholds : world.Upholds property) {node : Node}
    (fits : ∀ cache, world.caches[visit.cache]? = some cache →
      (∀ old, world.cached visit.cache node.path = some old → node.isOlderThan old = false) →
        property visit.cache cache.options node.path node.stat) :
    (world.commit visit node).Upholds property := by
  unfold World.commit
  split
  · exact upholds
  · cases found : world.caches[visit.cache]? with
    | none => exact upholds
    | some cache =>
        have keeps := upholds visit.cache cache found
        have options := cache.options_commit world.now node visit.epoch
        have after : (cache.commit world.now node visit.epoch).2.store.Keeps
            fun path node => property visit.cache cache.options path node.stat := by
          unfold Cache.commit
          split
          · exact keeps
          · refine keeps.upsert_of_not_older world.now visit.epoch fun notOlder => ?_
            rw [← cached_of_found found] at notOlder
            exact fits cache found notOlder
        have stored := upholds.setCache found (options.symm ▸ after)
        exact stored.recalls (recalls_dispatchAll _ visit.cache _)

/-- What a visit commits need have the property only if it does not go back in remote time. -/
theorem Upholds.learns (upholds : before.Upholds property) {stat : Option Stat}
    (learns : before.Learns visit stat after)
    (fits : ∀ cache, before.caches[visit.cache]? = some cache →
      (∀ old was is, before.cached visit.cache visit.path = some old → old.stat = some was →
        stat = some is → was.instant ≤ is.instant) →
          property visit.cache cache.options visit.path stat) : after.Upholds property := by
  rcases learns with recalls | ⟨middle, node, prepares, isPath, rfl, recalls⟩
  · exact upholds.recalls recalls
  · refine Upholds.recalls (Upholds.commit (upholds.recalls prepares.recalls) ?_) recalls
    intro cache found notOlder
    obtain ⟨earlier, present, options⟩ := prepares.exists_cache found
    rw [isPath, options]
    refine fits earlier present fun old was is cached hadStat hasStat => ?_
    rw [isPath, prepares.cached] at notOlder
    have inOrder := notOlder old cached
    rw [Node.isOlderThan, hadStat, hasStat] at inOrder
    exact Stat.not_isOlderThan_iff.mp inOrder

/-- What each visit that may commit respects, every incident upholds. -/
theorem Upholds.undergo (upholds : world.Upholds property)
    (fits : ∀ visit stat, world.Draws visit stat → ∀ cache,
      world.caches[visit.cache]? = some cache →
        (∀ old was is, world.cached visit.cache visit.path = some old → old.stat = some was →
          stat = some is → was.instant ≤ is.instant) →
            property visit.cache cache.options visit.path stat) (incident : Incident) :
    (world.undergo incident).Upholds property := by
  rcases undergo_step_or_recalls world incident with rfl | ⟨ensemble, _, recalls⟩
  · cases yields_step world with
    | nothing recalls => exact upholds.recalls recalls
    | node draws learns => exact upholds.learns learns (fits _ _ draws)
    | answer prepares _ _ _ waits =>
        have kept := upholds.recalls prepares.recalls
        change world.step.Upholds property
        rw [waits]
        exact kept
  · have moved : (world.setEnsemble ensemble).Upholds property := upholds
    exact moved.recalls recalls

/-! ## Where stats come from -/

/-- The stat is on record for the path; and it is not missing if the path's action asks for it. -/
structure Vouches (record : Path → Stat → Prop) (options : CacheOptions) (path : Path)
    (stat : Option Stat) : Prop where
  recorded : ∀ read, stat = some read → record path read
  present : ∀ action traverse,
    options.mode.scope options.basePath path = some (action, traverse) →
      action.wantsStat = true → ∃ read, stat = some read

/-- Every stat that the world knows is on record. -/
structure Vouched (world : World) (record : Path → Stat → Prop) : Prop where
  cached : world.Upholds fun _ => Vouches record
  awaited : ∀ visit data stat, world.Bears visit (.ok (data, stat)) → record visit.path stat

variable {record : Path → Stat → Prop} {stat : Option Stat}

theorem Draws.vouches (draws : world.Draws visit stat) (vouched : world.Vouched record)
    (covers : ∀ path stat, world.ensemble.stat? path = some stat → record path stat)
    (found : world.caches[visit.cache]? = some cache) :
    Vouches record cache.options visit.path stat := by
  cases draws with
  | held bears =>
      refine ⟨?_, fun _ _ _ _ => ⟨_, rfl⟩⟩
      intro read isRead
      cases isRead
      exact vouched.awaited visit _ _ bears
  | read inScope stands =>
      refine ⟨?_, fun _ _ _ _ => ⟨_, rfl⟩⟩
      intro read isRead
      cases isRead
      exact covers visit.path _ stands
  | skipped inScope noStat =>
      refine ⟨fun _ isRead => (nomatch isRead), ?_⟩
      intro action traverse scope wantsStat
      obtain ⟨held, heldFound, heldScope⟩ := inScope
      rw [found] at heldFound
      cases heldFound
      rw [Cache.scope, scope] at heldScope
      cases heldScope
      rw [noStat] at wantsStat
      cases wantsStat

/-- What a world knows stays on record while it learns what stands in the tree. -/
theorem Vouched.undergo (vouched : world.Vouched record)
    (covers : ∀ path stat, world.ensemble.stat? path = some stat → record path stat)
    (incident : Incident) : (world.undergo incident).Vouched record := by
  refine ⟨vouched.cached.undergo (fun visit stat draws cache found _ =>
    draws.vouches vouched covers found) incident, ?_⟩
  intro visit data stat bears
  rcases undergo_step_or_recalls world incident with rfl | ⟨ensemble, _, recalls⟩
  · cases yields_step world with
    | nothing recalls => exact vouched.awaited visit data stat (recalls.answers _ _ bears)
    | node _ learns => exact vouched.awaited visit data stat (learns.bears bears)
    | @answer middle hold other answer prepares _ _ stands waits =>
        have still := prepares.recalls.answers visit (.ok (data, stat))
        change World.Bears world.step visit (.ok (data, stat)) at bears
        rw [waits] at bears
        rcases bears with queued | ⟨otherHold, suspended⟩
        · exact vouched.awaited visit data stat (still (Or.inl queued))
        · rcases List.mem_append.mp suspended with old | new
          · exact vouched.awaited visit data stat (still (Or.inr ⟨otherHold, old⟩))
          · cases List.mem_singleton.mp new
            exact covers visit.path stat (stands data stat rfl)
  · exact vouched.awaited visit data stat (recalls.answers _ _ bears)

theorem Vouched.mono {wider : Path → Stat → Prop} (vouched : world.Vouched record)
    (includes : ∀ path stat, record path stat → wider path stat) : world.Vouched wider where
  cached := by
    intro id cache found
    have keeps := vouched.cached id cache found
    refine ⟨keeps.distinct, fun path entry held => ?_⟩
    have vouches := keeps.nodes path entry held
    exact ⟨fun read isRead => includes path read (vouches.recorded read isRead), vouches.present⟩
  awaited := fun visit data stat bears =>
    includes visit.path stat (vouched.awaited visit data stat bears)

/-! ## Runs -/

/-- The stat stood at the path at some moment of a run. -/
def Stood (start : World) (incidents : List Incident) (path : Path) (stat : Stat) : Prop :=
  ∃ earlier, earlier <+: incidents ∧
    (start.undergoAll earlier).ensemble.stat? path = some stat

theorem Stood.append {start : World} {incidents : List Incident} {stat : Stat}
    (stood : start.Stood incidents path stat) (later : List Incident) :
    start.Stood (incidents ++ later) path stat := by
  obtain ⟨earlier, isEarlier, stands⟩ := stood
  exact ⟨earlier, isEarlier.trans (List.prefix_append incidents later), stands⟩

theorem vouched_of_reached (config : ConnectionConfig) (incidents : List Incident) :
    ((ofConfig config).undergoAll incidents).Vouched ((ofConfig config).Stood incidents) := by
  induction incidents using List.reverseRecOn with
  | nil =>
      refine ⟨fun _ _ found => (nomatch found), ?_⟩
      rintro visit data stat (queued | ⟨_, suspended⟩)
      · cases queued
      · cases suspended
  | append_singleton others last inductionHypothesis =>
      rw [undergoAll_concat]
      refine Vouched.mono (Vouched.undergo inductionHypothesis ?_ last)
        fun path stat stood => stood.append [last]
      exact fun path stat stands => ⟨others, List.prefix_rfl, stands⟩

theorem evolves_undergo (dated : world.ensemble.IsDated) {incident : Incident}
    (sameSide : incident.isTurn = false) :
    (world.undergo incident).ensemble.Evolves world.ensemble := by
  rcases undergo_step_or_recalls world incident with rfl | ⟨ensemble, evolves, recalls⟩
  · exact dated.evolves_of_sameTree (yields_step world).sameTree
  · have changed := evolves sameSide dated
    exact changed.trans (changed.dated.evolves_of_sameTree recalls.tree)

theorem evolves_undergoAll (dated : world.ensemble.IsDated) {incidents : List Incident}
    (sameSide : ∀ incident ∈ incidents, incident.isTurn = false) :
    (world.undergoAll incidents).ensemble.Evolves world.ensemble := by
  induction incidents generalizing world with
  | nil => exact dated.evolves_of_sameTree ⟨rfl, rfl⟩
  | cons incident others inductionHypothesis =>
      have first := evolves_undergo dated (sameSide incident List.mem_cons_self)
      have rest := inductionHypothesis first.dated fun other member =>
        sameSide other (List.mem_cons_of_mem _ member)
      exact first.trans rest

/-! ## Paths that stay cached -/

/-- Whatever is cached of the path stands at an instant or later. -/
def Reaches (world : World) (id : CacheId) (path : Path) (instant : Int ×ₗ Int) : Prop :=
  world.Upholds fun other _ key stat =>
    other = id → key = path → ∃ read, stat = some read ∧ instant ≤ read.instant

/-- Fetches of the path by the cache ask for its stat. -/
def Asks (world : World) (id : CacheId) (path : Path) : Prop :=
  ∃ cache action traverse, world.caches[id]? = some cache ∧
    cache.scope path = some (action, traverse) ∧ action.wantsStat = true

theorem Asks.of_retains (asks : before.Asks id path) (retains : after.Retains before) :
    after.Asks id path := by
  obtain ⟨cache, action, traverse, found, scope, wantsStat⟩ := asks
  obtain ⟨later, laterFound, sameOptions⟩ := retains id cache found
  refine ⟨later, action, traverse, laterFound, ?_, wantsStat⟩
  rw [Cache.scope, sameOptions]
  exact scope

theorem Asks.undergo (asks : world.Asks id path) (incident : Incident) :
    (world.undergo incident).Asks id path := by
  rcases undergo_step_or_recalls world incident with rfl | ⟨ensemble, _, recalls⟩
  · exact asks.of_retains (yields_step world).retains
  · have moved : (world.setEnsemble ensemble).Asks id path := asks
    exact moved.of_retains recalls.retains

/-- A visit of the path comes with a stat. -/
theorem Draws.exists_stat (draws : world.Draws visit stat) (asks : world.Asks visit.cache visit.path) :
    ∃ read, stat = some read := by
  cases draws with
  | held => exact ⟨_, rfl⟩
  | read => exact ⟨_, rfl⟩
  | skipped inScope noStat =>
      obtain ⟨cache, action, traverse, found, scope, wantsStat⟩ := asks
      obtain ⟨held, heldFound, heldScope⟩ := inScope
      rw [found] at heldFound
      cases heldFound
      rw [scope] at heldScope
      cases heldScope
      rw [noStat] at wantsStat
      cases wantsStat

variable {instant : Int ×ₗ Int}

/-- What is cached gives way to nothing older. -/
theorem Reaches.undergo (reaches : world.Reaches id path instant) (asks : world.Asks id path)
    (cached : world.cached id path ≠ none) (incident : Incident) :
    (world.undergo incident).Reaches id path instant := by
  refine Upholds.undergo reaches ?_ incident
  rintro visit stat draws cache found inOrder rfl rfl
  obtain ⟨old, isCached⟩ := Option.ne_none_iff_exists'.mp cached
  obtain ⟨was, hadStat, reached⟩ : ∃ was, old.stat = some was ∧ instant ≤ was.instant := by
    rw [cached_of_found found] at isCached
    exact (reaches visit.cache cache found).of_peek isCached rfl rfl
  obtain ⟨is, rfl⟩ := draws.exists_stat asks
  exact ⟨is, rfl, reached.trans (inOrder old was is isCached hadStat rfl)⟩

theorem Reaches.undergoAll (reaches : world.Reaches id path instant) (asks : world.Asks id path)
    {incidents : List Incident}
    (cached : ∀ earlier, earlier <+: incidents → (world.undergoAll earlier).cached id path ≠ none) :
    (world.undergoAll incidents).Reaches id path instant := by
  induction incidents generalizing world with
  | nil => exact reaches
  | cons incident others inductionHypothesis =>
      have now := cached [] List.nil_prefix
      refine inductionHypothesis (reaches.undergo asks now incident) (asks.undergo incident) ?_
      exact fun earlier isEarlier => cached (incident :: earlier)
        (List.cons_prefix_cons.mpr ⟨rfl, isEarlier⟩)

theorem Vouched.reaches (vouched : world.Vouched record) {old : Node} {was : Stat}
    (isCached : world.cached id path = some old) (hadStat : old.stat = some was) :
    world.Reaches id path was.instant := by
  intro other cache found
  refine ⟨(vouched.cached other cache found).distinct, ?_⟩
  rintro key entry present rfl rfl
  rw [cached_of_found found] at isCached
  obtain ⟨held, heldPresent, _, rfl⟩ := Store.peek_eq_some_iff.mp isCached
  rw [present] at heldPresent
  cases heldPresent
  exact ⟨was, hadStat, le_refl _⟩

theorem Reaches.exists_stat (reaches : world.Reaches id path instant) {new : Node}
    (isCached : world.cached id path = some new) :
    ∃ is, new.stat = some is ∧ instant ≤ is.instant := by
  cases found : world.caches[id]? with
  | none =>
      rw [cached, found] at isCached
      cases isCached
  | some cache =>
      rw [cached_of_found found] at isCached
      exact (reaches id cache found).of_peek isCached rfl rfl

theorem isDated_ofConfig (config : ConnectionConfig) : (ofConfig config).ensemble.IsDated :=
  Ensemble.isDated_initial

/-- The snapshot never goes back in remote time. Of two reads of a path the later one is never the
older one, and it is newer if it differs. What is cached of a path, and what a fetch of it still
waits to commit, was read at some moment of the run; whatever is read at that moment or later is not
refused as stale. As long as the path stays cached, it does not go back. -/
theorem reads_never_go_back :
    (∀ (requests later : List Ensemble.Request) (path : Path) (old new : Stat),
      (({} : Ensemble).serveAll requests).IsReadAs path old →
      (({} : Ensemble).serveAll (requests ++ later)).IsReadAs path new →
      ∀ first second : Node, first.stat = some old → second.stat = some new →
        second.isOlderThan first = false ∧ (old ≠ new → first.isOlderThan second = true)) ∧
    ∀ (config : ConnectionConfig) (incidents : List Incident) (id : CacheId) (cache : Cache)
        (path : Path) (action : Action) (traverse : Bool),
      let start := ofConfig config
      let world := start.undergoAll incidents
      (∀ incident ∈ incidents, incident.isTurn = false) →
      world.caches[id]? = some cache → cache.scope path = some (action, traverse) →
      action.wantsStat = true →
      (∀ visit data stat, visit.path = path → world.Bears visit (.ok (data, stat)) →
        start.Stood incidents path stat) ∧
      (∀ now held, cache.store.peek now path = some held →
        ∃ was, held.stat = some was ∧ start.Stood incidents path was ∧
          ∀ earlier later, earlier ++ later <+: incidents →
            (start.undergoAll earlier).ensemble.stat? path = some was →
            ∀ (node : Node) (is : Stat), node.path = path → node.stat = some is →
              (start.undergoAll (earlier ++ later)).ensemble.stat? path = some is →
              ∀ epoch, (cache.store.upsert now node epoch).1 ≠ .stale) ∧
      ∀ later : List Incident,
        (∀ middle, middle <+: later → (world.undergoAll middle).cached id path ≠ none) →
        ∀ old new, world.cached id path = some old →
          (world.undergoAll later).cached id path = some new →
          ∃ was is, old.stat = some was ∧ new.stat = some is ∧ was.instant ≤ is.instant := by
  constructor
  · intro requests later path old new isRead isReadLater first second hadStat hasStat
    rw [Ensemble.serveAll_append] at isReadLater
    have dated := (Ensemble.isDated_initial.evolves_serveAll requests).dated
    have leads := isRead.leadsTo dated isReadLater
    rw [Node.isOlderThan, Node.isOlderThan, hadStat, hasStat]
    refine ⟨Stat.not_isOlderThan_iff.mpr leads.le, fun differ => Stat.isOlderThan_iff.mpr ?_⟩
    exact leads.resolve_left differ
  · intro config incidents id cache path action traverse start world sameSide found scope wantsStat
    have vouched := vouched_of_reached config incidents
    have asks : world.Asks id path := ⟨cache, action, traverse, found, scope, wantsStat⟩
    have knows : ∀ now held, cache.store.peek now path = some held →
        Vouches (start.Stood incidents) cache.options path held.stat :=
      fun now held => (vouched.cached id cache found).of_peek
    refine ⟨?_, ?_, ?_⟩
    · rintro visit data stat rfl bears
      exact vouched.awaited visit data stat bears
    · intro now held isCached
      have vouches := knows now held isCached
      obtain ⟨was, hadStat⟩ := vouches.present action traverse scope wantsStat
      refine ⟨was, hadStat, vouches.recorded was hadStat, ?_⟩
      rintro earlier later isEarlier stood node is rfl hasStat stands epoch
      have sameSideBefore : ∀ incident ∈ earlier, incident.isTurn = false := fun incident member =>
        sameSide incident (isEarlier.subset (List.mem_append_left _ member))
      have sameSideAfter : ∀ incident ∈ later, incident.isTurn = false := fun incident member =>
        sameSide incident (isEarlier.subset (List.mem_append_right _ member))
      have dated := (evolves_undergoAll (isDated_ofConfig config) sameSideBefore).dated
      rw [undergoAll_append] at stands
      have leads := (evolves_undergoAll dated sameSideAfter).leadsTo dated stood stands
      exact Store.upsert_ne_stale isCached hadStat hasStat leads.le epoch
    · intro later stays old new isOld isNew
      have peeked : cache.store.peek world.now path = some old := cached_of_found found path ▸ isOld
      obtain ⟨was, hadStat⟩ := (knows _ old peeked).present action traverse scope wantsStat
      have reached := (vouched.reaches isOld hadStat).undergoAll asks stays
      obtain ⟨is, hasStat, inOrder⟩ := reached.exists_stat isNew
      exact ⟨was, is, hadStat, hasStat, inOrder⟩

/-- A fetch of a node is held back with what it has read, the node is rewritten, and a later fetch
commits what it reads. -/
def overtaking : List Incident :=
  [Command.startConnection, .announce .syncConnected, .create ['/', 'a'] [1] 0,
    .build ['/', 'a'] [.singleNode .statAndData], .start 0, .step, .hold ['/', 'a'],
    .refresh 0 ['/', 'a'], .step, .setData ['/', 'a'] [2], .step].flatMap Command.incidents

/-- The fetch that was held back comes to its end, and the node is rewritten and fetched again. -/
def catchingUp : List Incident :=
  [Command.release 0, .step, .setData ['/', 'a'] [3], .step].flatMap Command.incidents

def overtaken : World := (ofConfig defaultConfig).undergoAll overtaking

/-- The stat of the node after the transaction that wrote it last. -/
def writtenBy (zxid : Int) : Stat :=
  { czxid := 1, mzxid := zxid, ctime := 1, mtime := zxid, version := zxid - 1, dataLength := 1
    pzxid := 1 }

theorem reads_never_go_back_of_overtaken :
    (∀ first second : Node, first.stat = some (writtenBy 1) → second.stat = some (writtenBy 2) →
        second.isOlderThan first = false ∧ first.isOlderThan second = true) ∧
      (ofConfig defaultConfig).Stood overtaking ['/', 'a'] (writtenBy 1) ∧
      (∃ cache, overtaken.caches[0]? = some cache ∧
        (cache.store.upsert overtaken.now
          { path := ['/', 'a'], stat := some (writtenBy 1) } 0).1 = .stale ∧
        (cache.store.upsert overtaken.now
          { path := ['/', 'a'], stat := some (writtenBy 2) } 0).1 ≠ .stale) ∧
      ∃ new is, (overtaken.undergoAll catchingUp).cached 0 ['/', 'a'] = some new ∧
        new.stat = some is ∧ (writtenBy 2).instant ≤ is.instant := by
  have sameSide : ∀ incident ∈ overtaking, incident.isTurn = false := by decide +kernel
  have shown : (overtaken.caches[0]?).map (fun cache =>
      (cache.scope ['/', 'a'], (cache.store.peek overtaken.now ['/', 'a']).map (·.stat),
        (cache.store.upsert overtaken.now
          { path := ['/', 'a'], stat := some (writtenBy 1) } 0).1)) =
      some (some (.statAndData, false), some (some (writtenBy 2)), .stale) := by
    decide +kernel
  have waits : (overtaken.suspended.map fun suspension => (suspension.visit.path, suspension.answer)) =
      [(['/', 'a'], .ok ([1], writtenBy 1))] := by decide +kernel
  have stays : ∀ middle ∈ catchingUp.inits,
      (overtaken.undergoAll middle).cached 0 ['/', 'a'] ≠ none := by decide +kernel
  have stands : overtaken.ensemble.stat? ['/', 'a'] = some (writtenBy 2) := by decide +kernel
  obtain ⟨cache, found, isShown⟩ := Option.map_eq_some_iff.mp shown
  obtain ⟨scope, peeked, refused⟩ := (by simpa only [Prod.mk.injEq] using isShown :
    cache.scope ['/', 'a'] = some (.statAndData, false) ∧
      (cache.store.peek overtaken.now ['/', 'a']).map (·.stat) = some (some (writtenBy 2)) ∧
        (cache.store.upsert overtaken.now
          { path := ['/', 'a'], stat := some (writtenBy 1) } 0).1 = .stale)
  obtain ⟨held, isHeld, hadStat⟩ := Option.map_eq_some_iff.mp peeked
  obtain ⟨awaited, fresh, onwards⟩ := reads_never_go_back.2 defaultConfig overtaking 0 cache
    ['/', 'a'] .statAndData false sameSide found scope rfl
  refine ⟨?_, ?_, ⟨cache, found, refused, ?_⟩, ?_⟩
  · intro first second isFirst isSecond
    obtain ⟨notOlder, older⟩ := reads_never_go_back.1
      [.openSession 0, .create ['/', 'a'] [1] 0] [.setData ['/', 'a'] [2]] ['/', 'a']
      (writtenBy 1) (writtenBy 2) ⟨1, Or.inr ⟨[1], by decide +kernel⟩⟩
      ⟨1, Or.inl (by decide +kernel)⟩ first second isFirst isSecond
    exact ⟨notOlder, older (by decide)⟩
  · have isHeldBack : (['/', 'a'], .ok ([1], writtenBy 1)) ∈ overtaken.suspended.map
        fun suspension => (suspension.visit.path, suspension.answer) :=
      waits ▸ List.mem_singleton_self _
    obtain ⟨⟨hold, visit, answer⟩, member, same⟩ := List.mem_map.mp isHeldBack
    obtain ⟨isPath, rfl⟩ := Prod.mk.inj same
    exact awaited visit [1] (writtenBy 1) isPath (Or.inr ⟨hold, member⟩)
  · obtain ⟨was, isWas, _, notStale⟩ := fresh overtaken.now held isHeld
    rw [hadStat] at isWas
    cases isWas
    have still : overtaking ++ [] <+: overtaking := by rw [List.append_nil]
    have stillStands : ((ofConfig defaultConfig).undergoAll (overtaking ++ [])).ensemble.stat?
        ['/', 'a'] = some (writtenBy 2) := by
      rw [List.append_nil]
      exact stands
    exact notStale overtaking [] still stands _ (writtenBy 2) rfl rfl stillStands 0
  · have onward : ∀ middle, middle <+: catchingUp →
        (overtaken.undergoAll middle).cached 0 ['/', 'a'] ≠ none :=
      fun middle isEarlier => stays middle ((List.mem_inits middle catchingUp).mpr isEarlier)
    obtain ⟨new, isNew⟩ := Option.ne_none_iff_exists'.mp (onward catchingUp List.prefix_rfl)
    have isOld : overtaken.cached 0 ['/', 'a'] = some held := (cached_of_found found _).trans isHeld
    obtain ⟨was, is, isWas, isIs, inOrder⟩ := onwards catchingUp onward held new isOld isNew
    rw [hadStat] at isWas
    cases isWas
    exact ⟨new, is, isNew, isIs, inOrder⟩

end World

end WatchedTree
