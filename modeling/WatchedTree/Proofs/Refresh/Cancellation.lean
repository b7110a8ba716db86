import WatchedTree.Proofs.Refresh.Tokens
import WatchedTree.Proofs.World.Pace

/-!
# What a cancelled token changes

A run in which a token is cancelled is compared with the same run without that. Deliveries apart,
the same things befall both. Then both hold the same, read the same, and tell the same; only the end
of the refresh that the token stands for is not told of, unless it had come before.
-/
namespace WatchedTree

namespace CacheEvent

variable {rest whole part : List CacheEvent}

/-- The whole with a part of it left out. -/
def Without (rest whole part : List CacheEvent) : Prop :=
  ∃ front back, whole = front ++ part ++ back ∧ rest = front ++ back

theorem Without.append_left (without : Without rest whole part) (earlier : List CacheEvent) :
    Without (earlier ++ rest) (earlier ++ whole) part := by
  obtain ⟨front, back, rfl, rfl⟩ := without
  exact ⟨earlier ++ front, back, by simp only [List.append_assoc], (List.append_assoc _ _ _).symm⟩

theorem Without.ofNodes (without : Without rest whole part) (noNode : ofNodes part = []) :
    CacheEvent.ofNodes rest = CacheEvent.ofNodes whole := by
  obtain ⟨front, back, rfl, rfl⟩ := without
  rw [ofNodes_append, ofNodes_append, ofNodes_append, noNode, List.append_nil]

end CacheEvent

namespace World

variable {world first second : World} {id : CacheId} {refresh : RefreshId} {token : ChannelId}
  {incident : Incident} {audience : World → Bool}

/-! ## What is told -/

theorem journal_of_delivers (delivers : world.delivers incident = true) (id : CacheId) :
    (world.undergo incident).journal id = world.journal id := by
  cases incident with
  | turn | elapse => cases delivers
  | requeue => rfl
  | command command single =>
      cases command with
      | step =>
          change world.step.journal id = world.journal id
          cases queue : world.queue with
          | nil => rw [World.step, queue]
          | cons task tasks =>
              rw [step_of_queue queue]
              cases task with
              | fetch | resume =>
                  change world.queue.head?.all Task.isDelivery = true at delivers
                  rw [queue] at delivers
                  cases delivers
              | deliver cache registration => exact (delivered_deliver _ _ _).journal id
      | _ => cases delivers

theorem news_of_delivers (delivers : world.delivers incident = true) (id : CacheId) :
    (world.undergo incident).news world id = [] :=
  news_of_journal ((journal_of_delivers delivers id).trans (List.append_nil _).symm)

theorem announcement_eq_nil_or (world : World) (refresh : RefreshId) (id : CacheId) :
    world.announcement refresh id = [] ∨
      ∃ path, world.announcement refresh id = [.refreshed path] := by
  unfold announcement
  split
  · exact Or.inl rfl
  next given _ =>
    split
    · exact Or.inr ⟨given.refresher.path, rfl⟩
    · exact Or.inl rfl

theorem ofNodes_announcement (world : World) (refresh : RefreshId) (id : CacheId) :
    CacheEvent.ofNodes (world.announcement refresh id) = [] := by
  obtain nothing | ⟨path, told⟩ := world.announcement_eq_nil_or refresh id
  · rw [nothing]
    rfl
  · rw [told]
    rfl

theorem ofNodes_announcements (world : World) (ends : Option RefreshId) (id : CacheId) :
    CacheEvent.ofNodes (ends.toList.flatMap (world.announcement · id)) = [] := by
  cases ends with
  | none => rfl
  | some refresh =>
      rw [Option.toList_some, List.flatMap_cons, List.flatMap_nil, List.append_nil]
      exact world.ofNodes_announcement refresh id

/-- What a cache tells on an occasion: of nodes, and then of the refresh that has ended. -/
theorem Orderly.news (orderly : world.Orderly) (incident : Incident) (id : CacheId) :
    (world.undergo incident).journal id =
        world.journal id ++ (world.undergo incident).news world id ∧
      (world.undergo incident).news world id =
        CacheEvent.ofNodes ((world.undergo incident).news world id) ++
          (world.finishing incident).toList.flatMap (world.announcement · id) := by
  obtain ⟨told, nodes, journal⟩ := (orderly.concludes incident).told id
  rw [List.append_assoc] at journal
  have isNews := news_of_journal journal
  rw [isNews]
  refine ⟨journal, ?_⟩
  have ofNodes : CacheEvent.ofNodes (told ++
      (world.finishing incident).toList.flatMap (world.announcement · id)) = told := by
    rw [CacheEvent.ofNodes_append, world.ofNodes_announcements, List.append_nil]
    exact List.filter_eq_self.mpr nodes
  rw [ofNodes]

/-- What a cache tells of the end of the refresh that a token stands for, if an incident ends it. -/
def ownNews (world : World) (token : ChannelId) (id : CacheId) (incident : Incident) :
    List CacheEvent :=
  (world.endingOf token incident).toList.flatMap (world.announcement · id)

/-- What a cache tells of the end of the refresh that a token stands for, as far as it is told in
front of an audience. -/
def ownTidings (token : ChannelId) (audience : World → Bool) (id : CacheId) :
    World → List Incident → List CacheEvent
  | _, [] => []
  | world, incident :: others =>
    (if audience world then world.ownNews token id incident else []) ++
      ownTidings token audience id (world.undergo incident) others

theorem ofNodes_ownTidings (token : ChannelId) (audience : World → Bool) (id : CacheId)
    (world : World) (incidents : List Incident) :
    CacheEvent.ofNodes (ownTidings token audience id world incidents) = [] := by
  induction incidents generalizing world with
  | nil => rfl
  | cons incident others inductionHypothesis =>
      rw [ownTidings, CacheEvent.ofNodes_append, inductionHypothesis, List.append_nil]
      split
      · exact world.ofNodes_announcements _ id
      · rfl

theorem ownNews_of_none (none : world.endingOf token incident = none) :
    world.ownNews token id incident = [] := by
  rw [ownNews, none]
  rfl

theorem Orderly.ownTidings_of_isSpent (orderly : world.Orderly) (isSpent : world.IsSpent token)
    (audience : World → Bool) (id : CacheId) (incidents : List Incident) :
    ownTidings token audience id world incidents = [] := by
  induction incidents generalizing world with
  | nil => rfl
  | cons incident others inductionHypothesis =>
      rw [ownTidings, ownNews_of_none (orderly.endingOf_of_isSpent isSpent incident), ite_self,
        List.nil_append]
      exact inductionHypothesis (orderly.undergo incident)
        ((orderly.keepsTokens incident).isSpent isSpent)

theorem ownNews_of_ending (isEnding : world.endingOf token incident = some refresh) :
    world.ownNews token id incident = world.announcement refresh id := by
  rw [ownNews, isEnding]
  exact List.append_nil _

/-- The refresh of a token ends at most once, so that its end is told of at most once. -/
theorem Orderly.ownTidings_eq_nil_or (orderly : world.Orderly) (token : ChannelId)
    (audience : World → Bool) (id : CacheId) (incidents : List Incident) :
    ownTidings token audience id world incidents = [] ∨
      ∃ path, ownTidings token audience id world incidents = [.refreshed path] := by
  induction incidents generalizing world with
  | nil => exact Or.inl rfl
  | cons incident others inductionHypothesis =>
      rw [ownTidings]
      cases isEnding : world.endingOf token incident with
      | none =>
          rw [ownNews_of_none isEnding, ite_self, List.nil_append]
          exact inductionHypothesis (orderly.undergo incident)
      | some refresh =>
          rw [ownNews_of_ending isEnding, (orderly.undergo incident).ownTidings_of_isSpent
            (orderly.isSpent_of_ending isEnding), List.append_nil]
          split
          · exact world.announcement_eq_nil_or refresh id
          · exact Or.inl rfl

theorem endingOf_of_delivers (delivers : world.delivers incident = true) :
    world.endingOf token incident = none := by
  have nothing : world.finishing incident = none := by
    cases incident with
    | turn | elapse => cases delivers
    | requeue => rfl
    | command command single =>
        cases command with
        | step =>
            have isFront : world.front = none := by
              change world.queue.head?.all Task.isDelivery = true at delivers
              rw [front]
              cases queue : world.queue.head? with
              | none => rfl
              | some task =>
                  rw [queue] at delivers
                  cases task with
                  | deliver => rfl
                  | fetch | resume => cases delivers
            rw [finishing, isFront]
            rfl
        | _ => rfl
  rw [endingOf, nothing]
  rfl

/-! ## Two runs -/

theorem filterMap_refresh_filter (tasks : List Task) :
    (tasks.filter fun task => !task.isDelivery).filterMap Task.refresh? =
      tasks.filterMap Task.refresh? := by
  induction tasks with
  | nil => rfl
  | cons task others inductionHypothesis =>
      cases task with
      | deliver => exact inductionHypothesis
      | fetch fetch => exact congrArg (fetch.refresh :: ·) inductionHypothesis
      | resume visit answer => exact congrArg (visit.fetch.refresh :: ·) inductionHypothesis

theorem IsAttentive.pending (attentive : world.IsAttentive) :
    world.pending = (world.queue.filter fun task => !task.isDelivery).filterMap Task.refresh? ++
      world.suspended.map fun suspension => suspension.visit.fetch.refresh := by
  have nothing : world.deferred.filterMap Task.refresh? = [] := by
    rw [List.filterMap_eq_nil_iff]
    intro task member
    have isDelivery := attentive.deferred task member
    cases task with
    | deliver => rfl
    | fetch | resume => cases isDelivery
  rw [World.pending, List.filterMap_append, nothing, List.append_nil, filterMap_refresh_filter]

/-- A world in which a token is cancelled, and one that is like it. -/
structure Compares (token : ChannelId) (first second : World) : Prop where
  alike : IsLike token first second
  orderly : first.Orderly
  twinOrderly : second.Orderly
  attentive : first.IsAttentive
  twinAttentive : second.IsAttentive
  cancelled : first.isCancelled token = true

namespace Compares

variable (compares : Compares token first second)

include compares

theorem left (delivers : first.delivers incident = true) :
    Compares token (first.undergo incident) second where
  alike := compares.alike.undergo_delivers compares.attentive.deferred delivers
  orderly := compares.orderly.undergo incident
  twinOrderly := compares.twinOrderly
  attentive := (compares.attentive.undergo incident).attentive
  twinAttentive := compares.twinAttentive
  cancelled := (compares.orderly.keepsTokens incident).isCancelled compares.cancelled

theorem right (delivers : second.delivers incident = true) :
    Compares token first (second.undergo incident) where
  alike := (compares.alike.symm.undergo_delivers compares.twinAttentive.deferred delivers).symm
  orderly := compares.orderly
  twinOrderly := compares.twinOrderly.undergo incident
  attentive := compares.attentive
  twinAttentive := (compares.twinAttentive.undergo incident).attentive
  cancelled := compares.cancelled

theorem both (isLeft : first.delivers incident = false)
    (isRight : second.delivers incident = false) :
    Compares token (first.undergo incident) (second.undergo incident) where
  alike := compares.alike.undergo isLeft isRight
  orderly := compares.orderly.undergo incident
  twinOrderly := compares.twinOrderly.undergo incident
  attentive := (compares.attentive.undergo incident).attentive
  twinAttentive := (compares.twinAttentive.undergo incident).attentive
  cancelled := (compares.orderly.keepsTokens incident).isCancelled compares.cancelled

theorem ofNodes (id : CacheId) :
    CacheEvent.ofNodes (first.journal id) = CacheEvent.ofNodes (second.journal id) := by
  cases found : first.caches[id]? with
  | none => rw [journal, journal, found, compares.alike.absent found]
  | some cache =>
      obtain ⟨feed, twinFound, like⟩ := compares.alike.caches id cache found
      rw [journal_of_found found, journal_of_found twinFound]
      exact like.nodes

/-- The same refresh ends in both worlds. -/
theorem finishing (isLeft : first.delivers incident = false)
    (isRight : second.delivers incident = false) :
    first.finishing incident = second.finishing incident := by
  cases incident with
  | turn | elapse | requeue => rfl
  | command command single =>
      cases command with
      | step =>
          obtain ⟨task, tasks, twinTasks, queue, twinQueue, _, _⟩ :=
            compares.alike.twins_step isLeft isRight
          have after := compares.both isLeft isRight
          have pending : first.step.pending = second.step.pending := by
            have left := after.attentive.pending
            have right := after.twinAttentive.pending
            rw [← after.alike.queue, ← after.alike.suspended] at right
            exact left.trans right.symm
          rw [World.finishing, World.finishing, front_of_queue queue, front_of_queue twinQueue]
          congr 1
          funext refresh
          rw [outstanding, outstanding, pending]
      | _ => rfl

/-- The end of a refresh is told of alike, unless the token stands for it. -/
theorem announcement (refresh : RefreshId) (id : CacheId) :
    second.announcement refresh id = first.announcement refresh id ++
      if (second.refreshes[refresh]?).any (fun given => given.channel == some token) then
        second.announcement refresh id
      else [] := by
  cases found : second.refreshes[refresh]? with
  | none =>
      rw [World.announcement, World.announcement, compares.alike.refreshes, found]
      rfl
  | some given =>
      rw [Option.any_some]
      by_cases isToken : given.channel = some token
      · have givenUp : first.isGivenUp given = true := by
          rw [isGivenUp, isToken]
          exact compares.cancelled
        have silent : first.announces given = false := by
          unfold announces
          split
          · rfl
          · rw [givenUp]
            rfl
        have nothing : first.announcement refresh id = [] := by
          rw [World.announcement, compares.alike.refreshes, found]
          simp only [silent, Bool.false_eq_true, and_false, if_false]
        rw [nothing, if_pos (by rw [isToken]; exact BEq.rfl), List.nil_append]
      · have sameGivenUp : first.isGivenUp given = second.isGivenUp given := by
          rw [isGivenUp, isGivenUp]
          cases channel : given.channel with
          | none => rfl
          | some place =>
              have apart : place ≠ token := fun same => isToken (same ▸ channel)
              exact compares.alike.twins.isCancelled apart
        have sameAnnounces : first.announces given = second.announces given := by
          unfold announces
          cases cacheFound : first.caches[given.cache]? with
          | none => rw [compares.alike.absent cacheFound]
          | some cache =>
              obtain ⟨feed, twinFound, _⟩ := compares.alike.caches given.cache cache cacheFound
              rw [twinFound]
              simp only [sameGivenUp, Cache.options_withFeed, Cache.isClosed_withFeed]
        have same : first.announcement refresh id = second.announcement refresh id := by
          rw [World.announcement, World.announcement, compares.alike.refreshes, found]
          simp only [sameAnnounces]
        rw [same, if_neg (by simpa using isToken), List.append_nil]

/-- What one world tells, the other tells, but for the end of the refresh of the token. -/
theorem news (isLeft : first.delivers incident = false)
    (isRight : second.delivers incident = false) (id : CacheId) :
    (second.undergo incident).news second id =
      (first.undergo incident).news first id ++ second.ownNews token id incident := by
  have after := compares.both isLeft isRight
  obtain ⟨journal, told⟩ := compares.orderly.news incident id
  obtain ⟨twinJournal, twinTold⟩ := compares.twinOrderly.news incident id
  have nodes : CacheEvent.ofNodes ((first.undergo incident).news first id) =
      CacheEvent.ofNodes ((second.undergo incident).news second id) := by
    have grown := after.ofNodes id
    rw [journal, twinJournal, CacheEvent.ofNodes_append, CacheEvent.ofNodes_append,
      compares.ofNodes id] at grown
    exact List.append_cancel_left grown
  have ends : (second.finishing incident).toList.flatMap (second.announcement · id) =
      (first.finishing incident).toList.flatMap (first.announcement · id) ++
        second.ownNews token id incident := by
    rw [compares.finishing isLeft isRight, ownNews, endingOf]
    cases second.finishing incident with
    | none => rfl
    | some refresh =>
        simp only [Option.toList_some, List.flatMap_cons, List.flatMap_nil, List.append_nil,
          Option.filter_some]
        have announced := compares.announcement refresh id
        split at announced
        next isOwn =>
          rw [if_pos isOwn]
          simpa using announced
        next isOther =>
          rw [if_neg isOther]
          simpa using announced
  rw [twinTold, ends, ← nodes, ← List.append_assoc, ← told]

/-- Along two runs side by side, an audience that cannot tell worlds apart that are alike hears the
same in both, but for the end of the refresh of the token. -/
theorem tidings {earlier later : List Incident} (abreast : Abreast first second earlier later)
    (blind : ∀ left right, IsLike token left right → audience left = audience right)
    (id : CacheId) :
    CacheEvent.Without (World.tidings audience id first earlier)
      (World.tidings audience id second later) (ownTidings token audience id second later) := by
  induction abreast with
  | nil => exact ⟨[], [], rfl, rfl⟩
  | @left first second incident others later delivers rest inductionHypothesis =>
      rw [World.tidings, news_of_delivers delivers, ite_self, List.nil_append]
      exact inductionHypothesis (compares.left delivers)
  | @right first second incident others earlier delivers rest inductionHypothesis =>
      rw [World.tidings, ownTidings, news_of_delivers delivers,
        ownNews_of_none (endingOf_of_delivers delivers), ite_self, List.nil_append,
        List.nil_append]
      exact inductionHypothesis (compares.right delivers)
  | @both first second incident others later isLeft isRight rest inductionHypothesis =>
      have after := compares.both isLeft isRight
      obtain ⟨front, back, whole, left⟩ := inductionHypothesis after
      have same := blind first second compares.alike
      have told : (if audience second then (second.undergo incident).news second id else []) =
          (if audience first then (first.undergo incident).news first id else []) ++
            if audience second then second.ownNews token id incident else [] := by
        rw [same]
        split
        · exact compares.news isLeft isRight id
        · rfl
      rw [World.tidings, World.tidings, ownTidings, told, whole, left]
      generalize (if audience first then (first.undergo incident).news first id else []) = shared
      cases isEnding : second.endingOf token incident with
      | none =>
          rw [ownNews_of_none isEnding, ite_self, List.append_nil, List.nil_append]
          exact ⟨shared ++ front, back, by simp only [List.append_assoc],
            by simp only [List.append_assoc]⟩
      | some refresh =>
          -- Nothing is left to tell of the refresh after its end.
          have nothing := after.twinOrderly.ownTidings_of_isSpent
            (compares.twinOrderly.isSpent_of_ending isEnding) audience id later
          rw [nothing]
          exact ⟨shared, front ++ back, by simp only [List.append_nil, List.append_assoc], rfl⟩

theorem undergoAll {earlier later : List Incident}
    (abreast : Abreast first second earlier later) :
    Compares token (first.undergoAll earlier) (second.undergoAll later) := by
  induction abreast with
  | nil => exact compares
  | left delivers _ inductionHypothesis => exact inductionHypothesis (compares.left delivers)
  | right delivers _ inductionHypothesis => exact inductionHypothesis (compares.right delivers)
  | both isLeft isRight _ inductionHypothesis =>
      exact inductionHypothesis (compares.both isLeft isRight)

end Compares

/-! ## Runs that keep pace -/

theorem Compares.pause (compares : Compares token first second) {pause : List Incident}
    (silent : first.script pause = []) : Compares token (first.undergoAll pause) second := by
  have same : first.script pause = second.script [] := silent
  exact compares.undergoAll (abreast_of_script same)

/-- A world runs deliveries until it can do what another one does next. -/
theorem Compares.exists_ready (compares : Compares token first second)
    (isRight : second.delivers incident = false) :
    ∃ pause, first.script pause = [] ∧ (first.undergoAll pause).delivers incident = false := by
  cases isLeft : first.delivers incident with
  | false => exact ⟨[], rfl, isLeft⟩
  | true =>
      cases incident with
      | turn | elapse => cases isLeft
      | requeue => cases isRight
      | command command single =>
          cases command with
          | step =>
              obtain ⟨pause, silent, busy | idle⟩ := compares.attentive.exists_pause
              · exact ⟨pause, silent, busy⟩
              · have waits := (compares.pause silent).alike.symm.delivers_of_isIdle idle
                exact absurd (isRight.symm.trans waits) Bool.false_ne_true
          | _ => cases isLeft

/-- Whatever befalls one world can befall the other, and once nothing is left to be done in the one,
nothing need be left in the other. -/
theorem Compares.exists_script (compares : Compares token first second) (later : List Incident) :
    ∃ earlier, first.script earlier = second.script later ∧
      ((second.undergoAll later).isIdle = true → (first.undergoAll earlier).isIdle = true) := by
  induction later generalizing first second with
  | nil =>
      obtain ⟨pause, silent, ends⟩ := compares.attentive.exists_pause
      refine ⟨pause, silent, fun idle => ?_⟩
      rcases ends with busy | rests
      · have waits := (compares.pause silent).alike.delivers_of_isIdle idle
        exact absurd (busy.symm.trans waits) Bool.false_ne_true
      · exact rests
  | cons incident others inductionHypothesis =>
      cases isRight : second.delivers incident with
      | true =>
          rw [script_of_delivers isRight]
          exact inductionHypothesis (compares.right isRight)
      | false =>
          obtain ⟨pause, silent, isLeft⟩ := compares.exists_ready isRight
          obtain ⟨earlier, same, idle⟩ :=
            inductionHypothesis ((compares.pause silent).both isLeft isRight)
          refine ⟨pause ++ incident :: earlier, ?_, ?_⟩
          · rw [script_append, silent, script_of_not_delivers isLeft,
              script_of_not_delivers isRight, same, List.nil_append]
          · rw [undergoAll_append]
            exact idle

/-! ## Runs that settle -/

/-- Tasks run until none is left come to the same fetches in both worlds. -/
theorem Compares.script_tasks (compares : Compares token first second)
    {tasks twinTasks : List Incident} (areTasks : ∀ task ∈ tasks, task.isTask = true)
    (areTwinTasks : ∀ task ∈ twinTasks, task.isTask = true)
    (idle : (first.undergoAll tasks).isIdle = true)
    (twinIdle : (second.undergoAll twinTasks).isIdle = true) :
    first.script tasks = second.script twinTasks := by
  induction tasks generalizing first second twinTasks with
  | nil =>
      induction twinTasks generalizing second with
      | nil => rfl
      | cons task others inductionHypothesis =>
          obtain ⟨isTask, areOthers⟩ := List.forall_mem_cons.mp areTwinTasks
          have delivers : second.delivers task = true := by
            by_contra busy
            have isStep := eq_step_of_isTask isTask (eq_false_of_ne_true busy)
            rw [isStep] at busy
            exact busy (compares.alike.symm.delivers_of_isIdle idle)
          rw [script_of_delivers delivers]
          exact inductionHypothesis (compares.right delivers) areOthers twinIdle
  | cons task others outerHypothesis =>
      obtain ⟨isTask, areOthers⟩ := List.forall_mem_cons.mp areTasks
      cases isLeft : first.delivers task with
      | true =>
          rw [script_of_delivers isLeft]
          exact outerHypothesis (compares.left isLeft) areOthers areTwinTasks idle twinIdle
      | false =>
          have isStep := eq_step_of_isTask isTask isLeft
          induction twinTasks generalizing second with
          | nil =>
              rw [isStep, compares.alike.delivers_of_isIdle twinIdle] at isLeft
              cases isLeft
          | cons twin laters inductionHypothesis =>
              obtain ⟨isTwinTask, areLaters⟩ := List.forall_mem_cons.mp areTwinTasks
              cases isRight : second.delivers twin with
              | true =>
                  rw [script_of_delivers isRight]
                  exact inductionHypothesis (compares.right isRight) areLaters twinIdle
              | false =>
                  have isTwinStep := eq_step_of_isTask isTwinTask isRight
                  subst isStep isTwinStep
                  rw [script_of_not_delivers isLeft, script_of_not_delivers isRight]
                  exact congrArg _ (outerHypothesis (compares.both isLeft isRight) areOthers
                    areLaters idle twinIdle)

/-- Two worlds that settle each time after the same has befallen them keep pace. -/
theorem Compares.script_of_settles (compares : Compares token first second)
    {rounds : List (List Incident)} {twin later : List Incident}
    (settles : first.Settles rounds twin) (twinSettles : second.Settles rounds later) :
    first.script twin = second.script later := by
  induction settles generalizing second later with
  | nil =>
      cases twinSettles
      rfl
  | @cons first moves tasks others rounds areMoves areTasks idle rest inductionHypothesis =>
      cases twinSettles with
      | @cons _ _ twinTasks laters _ _ areTwinTasks twinIdle twinRest =>
          have isLeft := script_of_areMoves areMoves first
          have isRight := script_of_areMoves areMoves second
          have moved := compares.undergoAll (abreast_of_script (isLeft.trans isRight.symm))
          have same := moved.script_tasks areTasks areTwinTasks idle twinIdle
          rw [script_append, script_append, script_append, script_append, isLeft, isRight, same,
            inductionHypothesis (moved.undergoAll (abreast_of_script same)) twinRest]

/-- Whenever one of two worlds settles, so can the other. -/
theorem Compares.exists_settles (compares : Compares token first second)
    {rounds : List (List Incident)} {later : List Incident}
    (settles : second.Settles rounds later) : ∃ twin, first.Settles rounds twin := by
  induction settles generalizing first with
  | nil => exact ⟨[], .nil⟩
  | @cons second moves tasks others rounds areMoves areTasks idle rest inductionHypothesis =>
      have isLeft := script_of_areMoves areMoves first
      have isRight := script_of_areMoves areMoves second
      have moved := compares.undergoAll (abreast_of_script (isLeft.trans isRight.symm))
      obtain ⟨twinTasks, same, rests⟩ := moved.exists_script tasks
      have areTwinTasks : ∀ task ∈ twinTasks, task.isTask = true := by
        apply isTask_of_script
        rw [same]
        exact fun task member => areTasks task (mem_of_mem_script member)
      obtain ⟨twin, twinSettles⟩ :=
        inductionHypothesis (moved.undergoAll (abreast_of_script same))
      exact ⟨_, .cons areMoves areTwinTasks (rests idle) twinSettles⟩

/-! ## The token is cancelled -/

/-- What a run comes to in which a token is cancelled, compared with one in which the same things
befall a world but for that. -/
structure OnlyMisses (start : World) (token : ChannelId) (twin later : List Incident) : Prop where
  /-- Both hold the same, have made the same reads, and have told of the same failures. -/
  alike : IsLike token ((start.cancelToken token).undergoAll twin) (start.undergoAll later)
  /-- The token answers that it was cancelled. -/
  answer : (((start.cancelToken token).undergoAll twin).readToken token).1 =
    some (.error .refreshCancelled)
  /-- Both have told the same, but for the end of the refresh of the token. -/
  journal : ∀ id, CacheEvent.Without (((start.cancelToken token).undergoAll twin).journal id)
    ((start.undergoAll later).journal id) (ownTidings token (fun _ => true) id start later)
  /-- Once no task is left, everybody was called with the same events of nodes in the same order,
  and with the same events at all but for that end. -/
  heard : ((start.cancelToken token).undergoAll twin).isIdle = true →
    (start.undergoAll later).isIdle = true → ∀ id registration,
      CacheEvent.ofNodes (World.heard id registration (start.cancelToken token) twin) =
          CacheEvent.ofNodes (World.heard id registration start later) ∧
        CacheEvent.Without (World.heard id registration (start.cancelToken token) twin)
          (World.heard id registration start later)
          (ownTidings token (·.listens id registration) id start later)

variable {start : World} {twin later : List Incident}

theorem Orderly.journal_undergoAll (orderly : world.Orderly) (incidents : List Incident)
    (id : CacheId) :
    (world.undergoAll incidents).journal id =
      world.journal id ++ tidings (fun _ => true) id world incidents := by
  induction incidents generalizing world with
  | nil => exact (List.append_nil _).symm
  | cons incident others inductionHypothesis =>
      rw [undergoAll_cons, inductionHypothesis (orderly.undergo incident), tidings, if_pos rfl,
        (orderly.news incident id).1, List.append_assoc]

theorem IsLike.listens (alike : IsLike token first second) (id : CacheId)
    (registration : RegistrationId) :
    first.listens id registration = second.listens id registration := by
  cases found : first.caches[id]? with
  | none => rw [World.listens, World.listens, found, alike.absent found]
  | some cache =>
      obtain ⟨feed, twinFound, like⟩ := alike.caches id cache found
      rw [listens_of_found found, listens_of_found twinFound]
      exact like.isRegistered registration

theorem isCancelled_cancelToken (known : token < world.channels.length) :
    (world.cancelToken token).isCancelled token = true := by
  have found := List.getElem?_eq_getElem known
  rw [isCancelled, cancelToken, updateChannel, List.getElem?_modify_eq, found]
  rfl

theorem readToken_of_cancelled (cancelled : world.isCancelled token = true) :
    (world.readToken token).1 = some (.error .refreshCancelled) := by
  rw [isCancelled] at cancelled
  cases found : world.channels[token]? with
  | none =>
      rw [found] at cancelled
      cases cancelled
  | some channel =>
      rw [found] at cancelled
      rw [readToken, found]
      simp only [Channel.read, cancelled, if_true]

theorem compares_cancelToken (orderly : start.Orderly) (attentive : start.IsAttentive)
    (known : token < start.channels.length) :
    Compares token (start.cancelToken token) start where
  alike :=
    { IsLike.refl token start with
      channelCount := List.length_modify _ _ _
      channels := fun _ apart => List.getElem?_modify_ne _ _ (Ne.symm apart) }
  orderly := orderly.undergo (.command (.cancelToken token) rfl)
  twinOrderly := orderly
  attentive := (attentive.undergo (.command (.cancelToken token) rfl)).attentive
  twinAttentive := attentive
  cancelled := isCancelled_cancelToken known

theorem onlyMisses (orderly : start.Orderly) (attentive : start.IsAttentive)
    (known : token < start.channels.length)
    (same : (start.cancelToken token).script twin = start.script later) :
    start.OnlyMisses token twin later := by
  have compares := compares_cancelToken orderly attentive known
  have abreast := abreast_of_script same
  have after := compares.undergoAll abreast
  refine ⟨after.alike, readToken_of_cancelled after.cancelled, ?_, ?_⟩
  · intro id
    rw [orderly.journal_undergoAll, compares.orderly.journal_undergoAll]
    exact (compares.tidings abreast (fun _ _ _ => rfl) id).append_left (start.journal id)
  · intro cancelledIdle idle id registration
    have left := compares.attentive.heard twin id registration
    have right := attentive.heard later id registration
    rw [after.attentive.owed_of_isIdle cancelledIdle, List.append_nil] at left
    rw [after.twinAttentive.owed_of_isIdle idle, List.append_nil] at right
    have told := (compares.tidings abreast
      (fun _ _ alike => alike.listens id registration) id).append_left (start.owed id registration)
    rw [left, right]
    exact ⟨told.ofNodes (ofNodes_ownTidings _ _ _ _ _), told⟩

/-- To cancel a token changes nothing but what is told of its refresh. Whatever befalls a world can
befall it with the token cancelled, up to a point where no task is left if there is one. Then both
hold, read and count the same, tell of the same failures, and call everybody with the same events of
nodes; and they do so, however their tasks are run, if both settle after all that befalls them. What
is missing is at most the one event of the end of the refresh of the token, and nothing if that had
come before the token was cancelled. -/
theorem cancelled_misses_only_notice (config : ConnectionConfig) (earlier : List Incident)
    (known : token < ((ofConfig config).undergoAll earlier).channels.length) :
    let start := (ofConfig config).undergoAll earlier
    let cancelled := start.cancelToken token
    (∀ later, ∃ twin, cancelled.script twin = start.script later ∧
        ((start.undergoAll later).isIdle = true → (cancelled.undergoAll twin).isIdle = true)) ∧
      (∀ twin later, cancelled.script twin = start.script later →
        start.OnlyMisses token twin later) ∧
      (∀ rounds later, start.Settles rounds later → (∃ twin, cancelled.Settles rounds twin) ∧
        ∀ twin, cancelled.Settles rounds twin → start.OnlyMisses token twin later) ∧
      ∀ audience id later, ownTidings token audience id start later = [] ∨
        ¬ start.IsSpent token ∧
          ∃ path, ownTidings token audience id start later = [.refreshed path] := by
  intro start cancelled
  have orderly : start.Orderly := orderly_of_reached config earlier
  have attentive : start.IsAttentive := (isAttentive_ofConfig config).undergoAll earlier
  have compares := compares_cancelToken orderly attentive known
  refine ⟨compares.exists_script, fun twin later same => onlyMisses orderly attentive known same,
    ?_, ?_⟩
  · intro rounds later settles
    exact ⟨compares.exists_settles settles, fun twin twinSettles =>
      onlyMisses orderly attentive known (compares.script_of_settles twinSettles settles)⟩
  · intro audience id later
    by_cases isSpent : start.IsSpent token
    · exact Or.inl (orderly.ownTidings_of_isSpent isSpent audience id later)
    · exact (orderly.ownTidings_eq_nil_or token audience id later).imp_right
        fun told => ⟨isSpent, told⟩

/-- A node is held, and somebody listens. -/
def refetching : List Incident :=
  [Command.startConnection, .announce .syncConnected, .create ['/', 'a'] [1] 0,
    .build ['/', 'a'] [.singleNode .statAndData], .start 0, .step, .listen 0 { label := ['l'] },
    .step, .refreshAll 0].flatMap Command.incidents

/-- The node is fetched again and has not changed. That the refresh has ended is all that there is
to be told, so that with its token cancelled there is no delivery to be run. -/
theorem cancelled_misses_notice_of_refetch :
    1 < ((ofConfig defaultConfig).undergoAll refetching).channels.length ∧
      (((ofConfig defaultConfig).undergoAll refetching).cancelToken 1).script [.step] =
        ((ofConfig defaultConfig).undergoAll refetching).script [.step, .step] ∧
      ((((ofConfig defaultConfig).undergoAll refetching).cancelToken 1).undergoAll
        [.step]).isIdle = true ∧
      (((ofConfig defaultConfig).undergoAll refetching).undergoAll [.step, .step]).isIdle = true ∧
      ownTidings 1 (·.listens 0 1) 0 ((ofConfig defaultConfig).undergoAll refetching)
        [.step, .step] = [.refreshed ['/', 'a']] ∧
      ((ofConfig defaultConfig).undergoAll refetching).OnlyMisses 1 [.step] [.step, .step] := by
  have known : 1 < ((ofConfig defaultConfig).undergoAll refetching).channels.length := by
    decide +kernel
  have busy : ((ofConfig defaultConfig).undergoAll refetching).delivers .step = false := by
    decide +kernel
  have cancelledBusy : (((ofConfig defaultConfig).undergoAll refetching).cancelToken 1).delivers
      .step = false := by
    decide +kernel
  have delivers : (((ofConfig defaultConfig).undergoAll refetching).undergo .step).delivers
      .step = true := by
    decide +kernel
  have same : (((ofConfig defaultConfig).undergoAll refetching).cancelToken 1).script [.step] =
      ((ofConfig defaultConfig).undergoAll refetching).script [.step, .step] := by
    rw [script_of_not_delivers cancelledBusy, script_of_not_delivers busy,
      script_of_delivers delivers, script_nil, script_nil]
  obtain ⟨_, misses, _⟩ := cancelled_misses_only_notice defaultConfig refetching known
  refine ⟨known, same, ?cancelledIdle, ?idle, ?missing, misses [.step] [.step, .step] same⟩
  case cancelledIdle => decide +kernel
  case idle => decide +kernel
  case missing => decide +kernel

end World

end WatchedTree
