import WatchedTree.Proofs.Ensemble.Watches

/-!
# The connection leaves the tree alone

Sessions are opened and closed; what stands in the tree of the ensemble does not change.
-/
namespace WatchedTree

namespace Connection

variable {Listener : Type} (connection : Connection Ensemble Listener) (now : Moment)

theorem sameTree_dropSession :
    connection.dropSession.remote.SameTree connection.remote := by
  unfold dropSession
  split <;> exact ⟨rfl, rfl⟩

theorem sameTree_openSession :
    (connection.openSession now).2.remote.SameTree connection.remote := by
  have connect : ∀ (ensemble : Ensemble) (handler : Generation),
      (ensemble.openSession handler).2.SameTree ensemble := by
    intro ensemble handler
    unfold Ensemble.openSession
    split <;> exact ⟨rfl, rfl⟩
  unfold openSession
  split
  · exact ⟨rfl, rfl⟩
  · have dropped := sameTree_dropSession
      { connection with
        watcher := (connection.watcher.mark now .latent).2
        generation := connection.generation + 1 }
    simp only
    generalize dropSession
      { connection with
        watcher := (connection.watcher.mark now .latent).2
        generation := connection.generation + 1 } = latent at dropped ⊢
    have connected := connect latent.remote latent.generation
    split
    next fault remote opened =>
      exact (congrArg Prod.snd opened ▸ connected).trans dropped
    next session remote opened =>
      exact (congrArg Prod.snd opened ▸ connected).trans dropped

theorem sameTree_acquire : (connection.acquire now).2.remote.SameTree connection.remote := by
  unfold acquire
  split
  · exact ⟨rfl, rfl⟩
  · split
    · exact ⟨rfl, rfl⟩
    · split
      · exact ⟨rfl, rfl⟩
      · split
        · exact ⟨rfl, rfl⟩
        · split
          · exact ⟨rfl, rfl⟩
          · have opened := sameTree_openSession connection now
            unfold reopen
            split
            next failure after answered =>
              rw [answered] at opened
              exact opened
            next after answered =>
              rw [answered] at opened
              split <;> exact opened

theorem sameTree_close : (connection.close now).2.remote.SameTree connection.remote := by
  unfold close
  split
  · exact ⟨rfl, rfl⟩
  · simp only
    split
    · exact ⟨rfl, rfl⟩
    · split
      next fault remote closed =>
        cases closed
      next remote closed =>
        cases closed
        exact ⟨rfl, rfl⟩

theorem sameTree_absorb (event : Event) :
    (connection.absorb now event).remote.SameTree connection.remote := by
  unfold absorb
  split
  · exact ⟨rfl, rfl⟩
  next transition watcher _ =>
    simp only
    split
    · have opened := sameTree_openSession
        { connection with
          watcher
          counters :=
            { connection.counters with
              sessionExpired := connection.counters.sessionExpired.raise } } now
      unfold resetExpired
      simp only
      split
      next after answered =>
        rw [answered] at opened
        exact opened
      next failure after answered =>
        rw [answered] at opened
        exact opened
    · exact ⟨rfl, rfl⟩

end Connection

end WatchedTree
