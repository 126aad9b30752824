/-
# MediaArchiver.Daemon.Moves -- which files the mover is asked to put where

Over a whole run the mover is asked to place entries, each with the id of its source and a destination.
The destination is the archive's name of the source's path, and that keeps nothing of the path but its
stem (`DaemonConfig.getArchivedFileName_inj`). So two sources are placed apart exactly if their paths
differ in more than the extension (`placed_apart_iff`); a second source with the same stem replaces the
first one's archive.
-/
import MediaArchiver.Daemon.Sessions

namespace MediaArchiver

open Lib (Machine stem)

namespace Daemon

variable {cfg : DaemonConfig} {d : Daemon}

/-- The id and the destination of a file that an event asks the mover to place. -/
def placed (d : Daemon) : DaemonEvent → Option (Nat × Path)
  | .moverFinish _ =>
      match d.moving with
      | some ftm =>
          if ftm.ToBeMoved then some (ftm.result.originalFileId, ftm.result.fileName) else none
      | none => none
  | _ => none

/-- The destination is the name of the archive of a source with the id. -/
def Destined (cfg : DaemonConfig) (d : Daemon) (a : Nat × Path) : Prop :=
  ∃ file, (a.1, file) ∈ d.db.sourcefiles.rows ∧ a.2 = cfg.getArchivedFileName file.path

theorem Destined.step {a : Nat × Path} (h : Destined cfg d a) (e : DaemonEvent) :
    Destined cfg ((machine cfg).step d e) a := by
  obtain ⟨file, hfile, hname⟩ := h
  exact ⟨file, (step_does cfg d e).rows_keep hfile, hname⟩

theorem destined_of_placed (h : Known cfg [] d) {e : DaemonEvent} {a : Nat × Path}
    (ha : placed d e = some a) : Destined cfg d a := by
  cases e with
  | moverFinish outcome =>
    cases hmoving : d.moving with
    | none => simp [placed, hmoving] at ha
    | some ftm =>
      simp only [placed, hmoving] at ha
      split at ha
      · obtain rfl := Option.some.inj ha
        exact h.entries ftm (by simp [Daemon.entries, hmoving]) (h.moving ftm hmoving) List.not_mem_nil
      · exact absurd ha (by simp)
  | _ => exact absurd ha (by simp [placed])

/-- The destinations computed for two accepted sources differ exactly if their stems do, and in every
run in which sessions start empty, so do the destinations at which two sources are placed. -/
theorem placed_apart_iff (cfg : DaemonConfig) {es : List DaemonEvent}
    (hes : (machine cfg).Along StartsEmpty (start .empty) es) :
    (∀ p q, cfg.isInterestingFile p = true → cfg.isArchive p = false →
      cfg.isInterestingFile q = true → cfg.isArchive q = false → p ≠ q →
      (cfg.getArchivedFileName p ≠ cfg.getArchivedFileName q ↔ stem '.' p ≠ stem '.' q)) ∧
    ∀ a ∈ (machine cfg).outputs placed (start .empty) es,
      ∀ b ∈ (machine cfg).outputs placed (start .empty) es, a.1 ≠ b.1 →
        ∃ f g, (a.1, f) ∈ ((machine cfg).run (start .empty) es).db.sourcefiles.rows
          ∧ (b.1, g) ∈ ((machine cfg).run (start .empty) es).db.sourcefiles.rows
          ∧ f.path ≠ g.path ∧ (a.2 ≠ b.2 ↔ stem '.' f.path ≠ stem '.' g.path) := by
  have hstart : Known cfg [] (start .empty) := known_start cfg Store.wellFormed_empty
  have hstep : ∀ d e, Known cfg [] d → StartsEmpty d e → Known cfg [] ((machine cfg).step d e) :=
    fun d e h he => (step_does cfg d e).known h he.staysOrdered
  have hdest := (machine cfg).stable_outputs placed hstep
    (fun d e a (h : Destined cfg d a) => h.step e)
    (fun d e a h _ ha => (destined_of_placed h ha).step e) hstart hes
  have hknown : Known cfg [] ((machine cfg).run (start .empty) es) :=
    (machine cfg).invariant hstep hstart hes
  refine ⟨fun p q _ _ _ _ _ => not_congr (cfg.getArchivedFileName_inj p q), ?_⟩
  intro a ha b hb hne
  obtain ⟨f, hf, hfa⟩ := hdest a ha
  obtain ⟨g, hg, hgb⟩ := hdest b hb
  refine ⟨f, g, hf, hg, fun hpath => hne (hknown.tables.paths _ _ f g hf hg hpath), ?_⟩
  rw [hfa, hgb]
  exact not_congr (cfg.getArchivedFileName_inj f.path g.path)

/-- Two sources are discovered, and one session archives them one after the other. -/
def bothArchived (p q : Path) : List DaemonEvent :=
  [discovers p [], discovers q [], .authenticate 1 ⟨0, .zero⟩ "t".toList] ++ archives 1 ++ archives 1

theorem placed_apart_two_stems :
    let es := bothArchived "a.mov".toList "b.mov".toList
    (machine gCfg).outputs placed (start .empty) es
        = [(1, "a_archived.mp4".toList), (2, "b_archived.mp4".toList)]
      ∧ ∃ f g, (1, f) ∈ ((machine gCfg).run (start .empty) es).db.sourcefiles.rows
        ∧ (2, g) ∈ ((machine gCfg).run (start .empty) es).db.sourcefiles.rows ∧ f.path ≠ g.path
        ∧ ("a_archived.mp4".toList ≠ "b_archived.mp4".toList ↔ stem '.' f.path ≠ stem '.' g.path) :=
  ⟨by decide, (placed_apart_iff gCfg (by decide)).2 (1, "a_archived.mp4".toList) (by decide)
    (2, "b_archived.mp4".toList) (by decide) (by decide)⟩

/-- Two accepted sources that differ in their extension only are placed at the same destination. -/
theorem placed_together :
    (gCfg.isInterestingFile "a.mov".toList = true ∧ gCfg.isArchive "a.mov".toList = false)
      ∧ (gCfg.isInterestingFile "a.avi".toList = true ∧ gCfg.isArchive "a.avi".toList = false)
      ∧ (machine gCfg).outputs placed (start .empty) (bothArchived "a.mov".toList "a.avi".toList)
        = [(1, "a_archived.mp4".toList), (2, "a_archived.mp4".toList)] := by
  decide

end Daemon

end MediaArchiver
