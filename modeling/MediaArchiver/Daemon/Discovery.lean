/-
# MediaArchiver.Daemon.Discovery -- files on a disk, reported in some order

When the daemon starts, the watcher reports every file it finds, in the order in which the directories
list them. Each report looks for the counterpart of the file on the disk, and calls the database for the
two. So every file names at most one source, and at most one pair of a source and an archive (`link`),
and the catalogue holds the pairs in the sense of `MediaArchiver.Store.Pairing`.

Which files are catalogued, and with what size, does not depend on the order. Which archive a source
has does, as soon as two pairs share one of the two: of `a.mov` and `a.avi` the one that is reported
first gets `a_archived.mp4`.
-/
import MediaArchiver.Store.Pairing
import MediaArchiver.Daemon.Feedback

namespace MediaArchiver

open Lib (Machine Compatible greedy)
open Store (Paired)

namespace DaemonConfig

variable (cfg : DaemonConfig) (stat : Path → Option Nat)

/-- The tables after the files were reported, one after the other. The disk stays as it is. -/
def discover (files : List Path) : Store :=
  cfg.catalogue.run .empty (files.map (CatalogueEvent.fileSystemChange stat .fileDiscovered))

/-- The source that the report of a file names. -/
def source (fileName : Path) : Option BasicFileInfo :=
  (cfg.addFileCall stat .fileDiscovered fileName).bind AddFileCall.src

/-- The source and the archive that the report of a file names together. -/
def link (fileName : Path) : Option (Path × Path) := do
  let call ← cfg.addFileCall stat .fileDiscovered fileName
  let src ← call.src
  let dst ← call.dst
  return (src.fileName, dst.fileName)

variable {cfg stat}

/-- What a report names has a name, and the size that the disk says. -/
structure Reports (stat : Path → Option Nat) (call : AddFileCall) : Prop where
  src : ∀ s, call.src = some s → s.fileName ≠ [] ∧ s.fileSize = (stat s.fileName).getD 0
  dst : ∀ d, call.dst = some d → d.fileName ≠ []
  queue : call.queue = call.src.isSome

theorem counterpartSize_eq {aName : Path} (h : 0 < counterpartSize stat aName) :
    counterpartSize stat aName = (stat aName).getD 0 :=
  if_neg (ne_nil_of_counterpartSize h)

theorem reports_addFileCall {fileName : Path} {call : AddFileCall}
    (hcall : cfg.addFileCall stat .fileDiscovered fileName = some call) : Reports stat call := by
  obtain ⟨hname, size, hsize, ⟨-, aName, -, hpair⟩ | ⟨-, -, hpair⟩⟩ := addFileCall_cases hcall
  · obtain ⟨hsrc, hdst, hqueue⟩ := pairUp_eq_some hpair
    refine ⟨?_, ?_, hqueue⟩
    · intro s hs
      rw [hsrc] at hs
      by_cases hpos : 0 < counterpartSize stat aName
      · simp only [if_true, if_pos hpos] at hs
        obtain rfl := Option.some.inj hs
        exact ⟨ne_nil_of_counterpartSize hpos, counterpartSize_eq hpos⟩
      · simp [hpos] at hs
    · intro d hd
      rw [hdst] at hd
      obtain rfl := Option.some.inj hd
      exact hname
  · obtain ⟨hsrc, hdst, hqueue⟩ := pairUp_eq_some hpair
    refine ⟨?_, ?_, hqueue⟩
    · intro s hs
      rw [hsrc] at hs
      obtain rfl := Option.some.inj hs
      refine ⟨hname, ?_⟩
      rw [hsize]
      rfl
    · intro d hd
      rw [hdst] at hd
      by_cases hpos : 0 < counterpartSize stat (cfg.getArchivedFileName fileName)
      · simp only [Bool.false_eq_true, if_false, if_pos hpos] at hd
        obtain rfl := Option.some.inj hd
        exact ne_nil_of_counterpartSize hpos
      · simp [hpos] at hd

/-- Two sources with one name are one source. -/
theorem source_unique {files : List Path} {s src : BasicFileInfo}
    (hs : s ∈ files.filterMap (cfg.source stat)) (hname : s.fileName = src.fileName)
    (hsize : src.fileSize = (stat src.fileName).getD 0) : s = src := by
  obtain ⟨fileName, -, hsource⟩ := List.mem_filterMap.mp hs
  obtain ⟨call, hcall, hsrc⟩ := Option.bind_eq_some_iff.mp hsource
  obtain ⟨-, hs⟩ := (reports_addFileCall hcall).src s hsrc
  obtain ⟨sName, sSize⟩ := s
  obtain ⟨srcName, srcSize⟩ := src
  obtain rfl : sName = srcName := hname
  exact congrArg (BasicFileInfo.mk sName) (hs.trans hsize.symm)

/-- The catalogue holds the sources and the pairs that the reports named. -/
theorem paired_discover (files : List Path) :
    Paired (cfg.discover stat files) (files.filterMap (cfg.source stat))
      (files.filterMap (cfg.link stat)) := by
  induction files using List.reverseRecOn with
  | nil => exact Store.paired_empty
  | append_singleton files fileName ih =>
    have hstep : cfg.discover stat (files ++ [fileName]) = cfg.catalogue.step (cfg.discover stat files)
        (.fileSystemChange stat .fileDiscovered fileName) := by
      simp only [discover, List.map_append, cfg.catalogue.run_append]
      rfl
    rw [hstep, List.filterMap_append, List.filterMap_append]
    simp only [catalogue, storeCall]
    cases hcall : cfg.addFileCall stat .fileDiscovered fileName with
    | none => simpa [source, link, hcall] using ih
    | some call =>
      obtain ⟨hsrc, hdst, hqueue⟩ := reports_addFileCall hcall
      obtain ⟨src, dst, queue⟩ := call
      cases src with
      | none =>
        -- at most an archive
        simp only [source, link, hcall, List.filterMap_cons, List.filterMap_nil, Option.bind_some,
          bind, List.append_nil, Option.bind_none, Option.map_some]
        cases dst with
        | none => exact ih
        | some d =>
          have hsame := ih.addArchiveOnly (hdst d rfl) queue
          rw [show Store.machine.step (cfg.discover stat files) (.addFile none (some d) queue)
            = cfg.discover stat files from hsame]
          exact ih
      | some s =>
        obtain rfl : queue = true := hqueue
        obtain ⟨hname, hsize⟩ := hsrc s rfl
        have hunique : ∀ s' ∈ files.filterMap (cfg.source stat), s'.fileName = s.fileName → s' = s :=
          fun s' hs' hname' => source_unique hs' hname' hsize
        simp only [source, link, hcall, List.filterMap_cons, List.filterMap_nil, Option.bind_some,
          bind, pure]
        cases dst with
        | none =>
          simp only [Option.bind_none, List.append_nil]
          exact ih.addPlain hname hunique
        | some d => exact ih.addPair hname (hdst d rfl) hunique true

variable (cfg stat)

/-- In whatever order the files of a disk are reported, the same sources are catalogued with the same
sizes; and the catalogue is the same in all orders, with queue statuses and archives, exactly if no two
of the pairs that the reports name share a source or an archive. -/
theorem discovery_order_iff (files : List Path) :
    (∀ order, order.Perm files → ∀ path size,
      (∃ status archive, (path, size, status, archive) ∈ (cfg.discover stat order).entries) ↔
        ∃ status archive, (path, size, status, archive) ∈ (cfg.discover stat files).entries) ∧
    ((∀ order, order.Perm files → ∀ entry,
      entry ∈ (cfg.discover stat order).entries ↔ entry ∈ (cfg.discover stat files).entries) ↔
        Compatible (files.filterMap (cfg.link stat))) := by
  have hfiles : Paired (cfg.discover stat files) _ _ := paired_discover files
  refine ⟨?_, ?_, ?_⟩
  · intro order hperm path size
    rw [(paired_discover order).mem_sources_iff, hfiles.mem_sources_iff]
    exact (hperm.filterMap _).mem_iff
  · intro hsame e he f hf hshare
    -- each pair is taken if its file is reported first
    have hfirst : ∀ g ∈ files.filterMap (cfg.link stat), ∃ order : List Path, order.Perm files
        ∧ g ∈ greedy (order.filterMap (cfg.link stat)) := by
      intro g hg
      obtain ⟨fileName, hmem, hlink⟩ := List.mem_filterMap.mp hg
      refine ⟨fileName :: files.erase fileName, (List.perm_cons_erase hmem).symm, ?_⟩
      rw [List.filterMap_cons_some hlink]
      exact Lib.mem_greedy_head g _
    have hall : ∀ g ∈ files.filterMap (cfg.link stat), g ∈ greedy (files.filterMap (cfg.link stat)) := by
      intro g hg
      obtain ⟨order, hperm, htaken⟩ := hfirst g hg
      obtain ⟨size, status, hentry⟩ := (paired_discover order).mem_greedy_iff.mpr htaken
      exact hfiles.mem_greedy_iff.mp ⟨size, status, (hsame order hperm _).mp hentry⟩
    exact Lib.compatible_greedy _ e (hall e he) f (hall f hf) hshare
  · rintro hcomp order hperm ⟨path, size, status, archive⟩
    have hpairs := hperm.filterMap (cfg.link stat)
    have hcomp' : Compatible (order.filterMap (cfg.link stat)) :=
      hcomp.mono fun e he => hpairs.mem_iff.mp he
    rw [(paired_discover order).mem_entries_iff hcomp', hfiles.mem_entries_iff hcomp]
    simp only [hpairs.mem_iff, (hperm.filterMap (cfg.source stat)).mem_iff]

/-- A disk with files of one byte. -/
def onDisk (files : List Path) (fileName : Path) : Option Nat :=
  if files.contains fileName then some 1 else none

/-- Two sources with their archives, reported forwards and backwards. -/
theorem discovery_order_apart :
    let files := ["a.mov".toList, "a_archived.mp4".toList, "b.avi".toList, "b_archived.mp4".toList]
    ∀ entry, entry ∈ (gCfg.discover (onDisk files) files.reverse).entries ↔
      entry ∈ (gCfg.discover (onDisk files) files).entries := by
  intro files
  exact (discovery_order_iff gCfg (onDisk files) files).2.mpr (by decide) files.reverse
    files.reverse_perm

/-- Two sources share the name of an archive that is on the disk. The one that is reported first gets
it, the other one is done without. -/
theorem discovery_order_shared :
    let files := ["a.mov".toList, "a.avi".toList, "a_archived.mp4".toList]
    let order := ["a.avi".toList, "a.mov".toList, "a_archived.mp4".toList]
    order.Perm files ∧ ∃ entry ∈ (gCfg.discover (onDisk files) files).entries,
      entry ∉ (gCfg.discover (onDisk files) order).entries := by
  decide

end DaemonConfig

end MediaArchiver
