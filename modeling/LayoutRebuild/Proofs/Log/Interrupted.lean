import LayoutRebuild.Proofs.Build.Resolved
import LayoutRebuild.Proofs.FileSystem.Rooted
import LayoutRebuild.Proofs.Json.Cut
import LayoutRebuild.Proofs.Log.Saved

/-!
# Saving that stops half way

A log is saved in steps: the folders are made, the old file is removed, the new one is written.
Wherever this stops (`LogFile.Interrupted`), what is read afterwards is the old log, the new one,
nothing, or a fault (`save_interrupted`).  Up to the last step no file is made or changed, and of the
new file a part is there at most, which no reader takes for a whole one.

There is one exception.  A path may step up out of a folder that is still missing: it leads nowhere
until the folder is made, and to some other file from then on (`uncovered_log`).
-/

namespace LayoutRebuild

/-! ## Readers -/

namespace Json

open Reader

theorem Balanced.table {α : Type} {r : Reader α} (h : Balanced r) : Balanced (Table.reader r) :=
  h.pairs.map _

theorem Balanced.sortedSet {κ : Type} [Ord κ] [Std.TransOrd κ] [Std.LawfulEqOrd κ] {r : Reader κ}
    (h : Balanced r) : Balanced (SortedSet.reader r) :=
  h.array.map _

theorem balanced_implementation : Balanced Implementation.reader := by
  have hfields : BalancedFields Implementation.fields := by
    refine .cons (fun _ => balanced_text.map _) ?_
    refine .cons (fun _ => balanced_boolean.map _) ?_
    exact .cons (fun _ => balanced_text.map _) .nil
  exact hfields.record _ _

theorem balanced_bindingClass : Balanced BindingClass.reader := by
  have hfields : BalancedFields BindingClass.fields := by
    refine .cons (fun _ => balanced_text.map _) ?_
    refine .cons (fun _ => balanced_text.map _) ?_
    refine .cons (fun _ => balanced_text.table.map _) ?_
    exact .cons (fun _ => balanced_implementation.sortedSet.map _) .nil
  exact hfields.record _ _

end Json

namespace LogFile

open Json

theorem balancedFields : BalancedFields LogFile.fields := by
  refine .cons (fun _ => (balanced_natural _).map _) ?_
  refine .cons (fun _ => balanced_bindingClass.table.map _) ?_
  refine .cons (fun _ => balanced_text.sortedSet.table.optional.map _) ?_
  refine .cons (fun _ => balanced_bindingClass.table.optional.map _) ?_
  exact .cons (fun _ => balanced_hash.table.optional.map _) .nil

/-! ## A part of a file -/

variable {fs fs' : FileSystem} {path : Path} {file : LogFile}

theorem toUTF8_of_fromUTF8? {content : ByteArray} {text : String}
    (h : String.fromUTF8? content = some text) : text.toUTF8 = content := by
  unfold String.fromUTF8? at h
  split at h
  · cases h
    rfl
  · cases h

/-- Of bytes that begin a text, those that are a text begin it character by character. -/
theorem exists_append_of_toUTF8 {part whole : String} {rest : ByteArray}
    (h : part.toUTF8 ++ rest = whole.toUTF8) (hrest : rest ≠ .empty) :
    ∃ more, more ≠ [] ∧ part.toList ++ more = whole.toList := by
  have hbytes : part.toList.utf8Encode ++ rest = whole.toList.utf8Encode := by
    rw [String.utf8Encode_toList, String.utf8Encode_toList]
    exact h
  obtain ⟨more, hmore⟩ := List.isPrefix_of_utf8Encode_append_eq_utf8Encode rest hbytes
  refine ⟨more, ?_, hmore⟩
  rintro rfl
  rw [List.append_nil] at hmore
  rw [hmore] at hbytes
  exact hrest ((ByteArray.append_right_inj _).mp (hbytes.trans ByteArray.append_empty.symm))

theorem document_of_cut {text : String} {more : List Char} (hmore : more ≠ [])
    (h : text.toList ++ more = file.toText.toList) :
    ∃ fault, Reader.document reader text = .error fault :=
  Json.document_of_cut balancedFields _ _ hmore h

/-- A file of which the last bytes are missing is refused. -/
theorem read_of_cut {content rest : ByteArray} (hcut : content ++ rest = file.toText.toUTF8)
    (hrest : rest ≠ .empty) (h : fs.read path = .ok content) :
    ∃ fault, read fs path = .error fault := by
  unfold read FileSystem.readText
  rw [h]
  simp only
  cases htext : String.fromUTF8? content with
  | none => exact ⟨_, rfl⟩
  | some text =>
    rw [← toUTF8_of_fromUTF8? htext] at hcut
    obtain ⟨more, hmore, happend⟩ := exists_append_of_toUTF8 hcut hrest
    obtain ⟨fault, hfault⟩ := document_of_cut hmore happend
    simp only [hfault]
    exact ⟨_, rfl⟩

/-! ## Where saving can stop -/

/-- What is left of a file system when the writing of a file stops. -/
inductive Interrupted (fs : FileSystem) (path : Path) (file : LogFile) : FileSystem → Prop
  | untouched : Interrupted fs path file fs
  /-- Some of the folders are there. -/
  | making {folder : Path} {above : List Path} (parent : path.parent? = some folder)
      (part : above <:+ FileSystem.ancestry folder (folder.components.length + 1)) :
      Interrupted fs path file (fs.makeFolderBelow above).1
  /-- The old file is gone, if it could be removed. -/
  | clearing {made : FileSystem} (prepared : prepareFolder fs path = (made, .ok ())) :
      Interrupted fs path file (clear made path).1
  /-- Some bytes of the new file are there, or all of them. -/
  | writing {made cleared written : FileSystem} {content rest : ByteArray}
      (prepared : prepareFolder fs path = (made, .ok ()))
      (removed : clear made path = (cleared, .ok ()))
      (part : content ++ rest = file.toText.toUTF8)
      (begun : cleared.writeFile path content = .ok written) : Interrupted fs path file written

/-- What writing leaves is one of the states that it passes through. -/
theorem interrupted_write : Interrupted fs path file (write fs path file).1 := by
  have hprepared : Interrupted fs path file (prepareFolder fs path).1 := by
    rcases prepareFolder_fst fs path with hsame | ⟨folder, hfolder, hmade⟩
    · rw [hsame]
      exact .untouched
    · rw [hmade]
      exact .making hfolder List.suffix_rfl
  unfold write
  split
  next made fault hmade => rwa [hmade] at hprepared
  next made hmade =>
    split
    next cleared fault hcleared =>
      have hclearing : Interrupted fs path file (clear made path).1 := .clearing hmade
      rwa [hcleared] at hclearing
    next cleared hcleared =>
      split
      next written hwritten => exact .writing hmade hcleared ByteArray.append_empty hwritten
      next fault _ =>
        rcases FileSystem.breakOff_cases cleared path file.toText.toUTF8 with
          hnothing | ⟨part, rest, hpart, hbegun⟩
        · have hclearing : Interrupted fs path file (clear made path).1 := .clearing hmade
          rw [hcleared] at hclearing
          rwa [hnothing]
        · exact .writing hmade hcleared hpart hbegun

theorem clear_addsNoFile : fs.AddsNoFile (clear fs path).1 := by
  rcases clear_fst fs path with hsame | hcleared
  · rw [hsame]
    exact .refl fs
  · exact .removeFile hcleared

namespace Interrupted

/-- No file is added but the new one, and of that one some bytes are there. -/
theorem addsNoFile_or_part (h : Interrupted fs path file fs') : fs.AddsNoFile fs' ∨
    ∃ content rest, content ++ rest = file.toText.toUTF8 ∧ fs'.read path = .ok content := by
  cases h with
  | untouched => exact .inl (.refl fs)
  | making => exact .inl (.makeFolderBelow _)
  | @clearing made prepared =>
    have hmade : fs.AddsNoFile made := by
      have hprepared : fs.AddsNoFile (prepareFolder fs path).1 := prepareFolder_addsNoFile
      rwa [prepared] at hprepared
    exact .inl (hmade.trans clear_addsNoFile)
  | @writing made cleared written content rest prepared removed part begun =>
    exact .inr ⟨content, rest, part, FileSystem.read_writeFile begun⟩

theorem keeps (h : Interrupted fs path file fs') : FileSystem.Keeps (fun _ => True) fs fs' := by
  have hmade {made : FileSystem} (prepared : prepareFolder fs path = (made, .ok ())) :
      FileSystem.Keeps (fun _ => True) fs (clear made path).1 := by
    have hprepared : FileSystem.Keeps (fun _ => False) fs (prepareFolder fs path).1 :=
      prepareFolder_keeps
    rw [prepared] at hprepared
    exact (hprepared.mono fun _ h => h.elim).trans (clear_keeps.mono fun _ _ => trivial)
  cases h with
  | untouched => exact .refl fs
  | making => exact (FileSystem.makeFolderBelow_keeps _).mono fun _ h => h.elim
  | clearing prepared => exact hmade prepared
  | @writing made cleared written content rest prepared removed part begun =>
    have hcleared := hmade prepared
    rw [removed] at hcleared
    exact hcleared.trans ((FileSystem.writeFile_keeps begun).mono fun _ _ => trivial)

end Interrupted

end LogFile

/-! ## The log that is read afterwards -/

variable {fs fs' : FileSystem} {path : Path}

namespace BuildLog

theorem read_congr (h : fs.read path = fs'.read path) : read fs path = read fs' path := by
  unfold read LogFile.read FileSystem.readText
  rw [h]

theorem exists_content {log : BuildLog} (h : read fs path = .ok (some log)) :
    ∃ content, fs.read path = .ok content := by
  cases hread : fs.read path with
  | ok content => exact ⟨content, rfl⟩
  | error fault =>
    unfold read LogFile.read FileSystem.readText at h
    rw [hread] at h
    cases fault <;> cases h

theorem read_of_cut {log : BuildLog} {content rest : ByteArray}
    (hcut : content ++ rest = (LogFile.ofLog log).toText.toUTF8) (hrest : rest ≠ .empty)
    (h : fs.read path = .ok content) : ∃ fault, read fs path = .error fault := by
  obtain ⟨fault, hfault⟩ := LogFile.read_of_cut hcut hrest h
  refine ⟨fault, ?_⟩
  unfold read
  rw [hfault]

end BuildLog

/-- A path that leads nowhere leads to no old file once folders are made.  It leads somewhere already, or
it has no step up and every entry stands in a folder. -/
def FileSystem.Steady (fs : FileSystem) (path : Path) : Prop :=
  (∃ loc, fs.locate path = .ok loc) ∨ (fs.Rooted ∧ ".." ∉ path.segments)

/-- A file that a steady path leads to in the end, and that was there all the time, is what it led to. -/
theorem FileSystem.Steady.read (h : fs.Steady path) (hkeeps : Keeps (fun _ => True) fs fs')
    (hadds : fs.AddsNoFile fs') {content : ByteArray} (hread : fs'.read path = .ok content) :
    fs.read path = .ok content := by
  obtain ⟨loc, hloc, hfile⟩ := read_eq_ok.mp hread
  have hstood := hadds loc _ hfile
  have hbefore : fs.locate path = .ok loc := by
    rcases h with ⟨before, hbefore⟩ | ⟨hrooted, hup⟩
    · rw [hkeeps.locate hbefore, Except.ok.injEq] at hloc
      rw [hbefore, hloc]
    · exact hrooted.locate hkeeps.workingFolder_eq hup hstood hfile hloc
  exact read_eq_ok.mpr ⟨loc, hbefore, hstood⟩

/-- A log that is read afterwards is the new one, or the one that was read before. -/
theorem LogFile.Interrupted.read_log {new log : BuildLog}
    (h : LogFile.Interrupted fs path (.ofLog new) fs') (hsteady : fs.Steady path)
    (hlog : BuildLog.read fs' path = .ok (some log)) :
    log = new ∨ BuildLog.read fs path = .ok (some log) := by
  rcases h.addsNoFile_or_part with hadds | ⟨content, rest, hpart, hread⟩
  · obtain ⟨content, hread⟩ := BuildLog.exists_content hlog
    have hbefore := hsteady.read h.keeps hadds hread
    right
    rw [BuildLog.read_congr (hbefore.trans hread.symm), hlog]
  · left
    by_cases hrest : rest = .empty
    · rw [hrest, ByteArray.append_empty] at hpart
      rw [BuildLog.read_of_text (hpart ▸ hread)] at hlog
      simpa using hlog.symm
    · obtain ⟨fault, hfault⟩ := BuildLog.read_of_cut hpart hrest hread
      rw [hfault] at hlog
      cases hlog

/-- Wherever the saving of a log stops, be it that the device stops it, no wrong log is left.  What is
read afterwards is what was read before, or nothing, or a fault, or the new log, if the path is a steady
one.  A saved log of which the last bytes are missing is refused, and the next build starts anew without
it. -/
theorem save_interrupted (new : BuildLog) :
    (∀ fs path, LogFile.Interrupted fs path (.ofLog new) (BuildLog.save fs path new).1) ∧
    (∀ fs path fs', LogFile.Interrupted fs path (.ofLog new) fs' → fs.Steady path →
      BuildLog.read fs' path = BuildLog.read fs path ∨ BuildLog.read fs' path = .ok none ∨
        (∃ fault, BuildLog.read fs' path = .error fault) ∨
        BuildLog.read fs' path = .ok (some new)) ∧
    (∀ (fs : FileSystem) path content rest, content ++ rest = (LogFile.ofLog new).toText.toUTF8 →
      rest ≠ .empty → fs.read path = .ok content →
        ∃ fault, BuildLog.read fs path = .error fault ∧
          ∀ args present, args.logPath = path → args.incremental = true →
            descriptorFiles fs args.descriptorFolder = .ok present →
              ∃ r diagnostics, resolve fs args = .ok (r, diagnostics) ∧
                r.mode = .full (.corruptLog fault) ∧ r.filesToConsider = present ∧
                r.unchangedLog = .empty ∧ r.invalidatedClasses = ∅) := by
  refine ⟨fun fs path => LogFile.interrupted_write, fun fs path fs' h hsteady => ?_, ?_⟩
  · cases hread : BuildLog.read fs' path with
    | error fault => exact .inr (.inr (.inl ⟨fault, rfl⟩))
    | ok log? =>
      cases log? with
      | none => exact .inr (.inl rfl)
      | some log =>
        rcases h.read_log hsteady hread with rfl | hold
        · exact .inr (.inr (.inr rfl))
        · exact .inl hold.symm
  · intro fs path content rest hcut hrest hread
    obtain ⟨fault, hfault⟩ := BuildLog.read_of_cut hcut hrest hread
    refine ⟨fault, hfault, ?_⟩
    rintro args present rfl hincremental hpresent
    obtain ⟨diagnostics, hresolve⟩ := resolve_of_fault hincremental hfault hpresent
    exact ⟨_, diagnostics, hresolve, rfl, rfl, rfl, rfl⟩

/-! ## Saving over a log -/

def oneLayoutLog : BuildLog := ⟨Table.ofList [("a", ⟨"com.A", "com", ∅, ∅⟩)], ∅, ∅, ∅⟩

/-- A file system with a log file to which nothing has been written yet. -/
def FileSystem.logBegun : FileSystem where
  nodes := Table.ofList [(["log"], .folder), (["log", "binder_log.json"], .file (.bytes .empty))]
  workingFolder := []

/-- Saving over the log of one layout: once the new file is made but nothing is written to it, neither
the old log nor the new one is read, and a full build follows. -/
theorem save_interrupted_over_log : ∃ fault r diagnostics,
    BuildLog.read (.ofLog oneLayoutLog) (BuildLog.pathIn ⟨"log"⟩) = .ok (some oneLayoutLog) ∧
    oneLayoutLog ≠ .empty ∧
    LogFile.Interrupted (.ofLog oneLayoutLog) (BuildLog.pathIn ⟨"log"⟩) (.ofLog .empty) .logBegun ∧
    BuildLog.read .logBegun (BuildLog.pathIn ⟨"log"⟩) = .error fault ∧
    resolve .logBegun ⟨"com", ⟨"info"⟩, [], ⟨"log"⟩, none, true, [], []⟩ = .ok (r, diagnostics) ∧
    r.mode = .full (.corruptLog fault) := by
  obtain ⟨-, hsafe, hcut⟩ := save_interrupted .empty
  have hold := BuildLog.read_ofLog oneLayoutLog
  have hbegun : LogFile.Interrupted (.ofLog oneLayoutLog) (BuildLog.pathIn ⟨"log"⟩) (.ofLog .empty)
      .logBegun := .writing rfl rfl ByteArray.empty_append rfl
  have hrest : (LogFile.ofLog .empty).toText.toUTF8 ≠ .empty := by decide +kernel
  have hread : FileSystem.logBegun.read (BuildLog.pathIn ⟨"log"⟩) = .ok .empty := rfl
  obtain ⟨fault, hfault, hresolve⟩ := hcut _ _ _ _ ByteArray.empty_append hrest hread
  obtain ⟨r, diagnostics, hr, hmode, -⟩ :=
    hresolve ⟨"com", ⟨"info"⟩, [], ⟨"log"⟩, none, true, [], []⟩ ∅ rfl rfl rfl
  refine ⟨fault, r, diagnostics, hold, by decide, hbegun, ?_, hr, hmode⟩
  rcases hsafe _ _ _ hbegun (.inl ⟨_, rfl⟩) with hsame | hnone | ⟨fault', hfault'⟩ | hnew
  · exact absurd (hfault.symm.trans (hsame.trans hold)) nofun
  · exact absurd (hfault.symm.trans hnone) nofun
  · exact hfault
  · exact absurd (hfault.symm.trans hnew) nofun

/-- A path that steps up out of a missing folder leads nowhere.  When the folder is made, a log comes to
light that is neither the old one, of which there was none, nor the new one. -/
theorem uncovered_log : ∃ fs path fs' log new, fs.Rooted ∧
    LogFile.Interrupted fs path (.ofLog new) fs' ∧ BuildLog.read fs path = .ok none ∧
    BuildLog.read fs' path = .ok (some log) ∧ log ≠ new := by
  have hrooted : (FileSystem.ofLog oneLayoutLog).Rooted := by
    intro loc node hnode
    have hmem := Table.mem_of_get?_ofList hnode
    simp only [List.mem_cons, List.not_mem_nil, or_false, Prod.mk.injEq] at hmem
    rcases hmem with ⟨rfl, -⟩ | ⟨rfl, -⟩ <;> rfl
  have hparent : (Path.mk "missing/../log/binder_log.json").parent? = some ⟨"missing/../log"⟩ := by
    decide
  have hpart : [Path.mk "missing", ⟨""⟩] <:+ FileSystem.ancestry ⟨"missing/../log"⟩ 4 :=
    ⟨[⟨"missing/../log"⟩, ⟨"missing/.."⟩], by decide⟩
  exact ⟨.ofLog oneLayoutLog, ⟨"missing/../log/binder_log.json"⟩, _, oneLayoutLog, .empty, hrooted,
    .making hparent hpart, rfl, BuildLog.read_of_text rfl, by decide⟩

end LayoutRebuild
