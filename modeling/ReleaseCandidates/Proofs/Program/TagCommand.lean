import ReleaseCandidates.Proofs.Program.Commands
import ReleaseCandidates.Proofs.Tag.Asking
import ReleaseCandidates.Proofs.Tag.Isolation

set_option autoImplicit false

/-! # What the tag command does about its versions

The command works through the versions that were asked for. No failure stops it: each tag that a
version needs is asked for (`Tag.ensureVersions_asks`), each version is reported on, and the reports
alone decide how the command ends (`tag_ends`).

`Program.reconciliation_isolates_failures` puts this together with what the reports account for and
with how little of a version matters for one of its repositories. -/

namespace ReleaseCandidates

variable {σ : Type}

namespace Program

variable {τ : Type} {s : Surroundings τ} {args : List String} {a : Arguments}
  {config : Configuration} {asked only : Option String} {dryRun : Bool} {fs : FileSystem}
  {versions selected : List NamedVersion}

/-! ## How the command ends -/

/-- The forge that the tag command works on. -/
def tagHost (s : Surroundings τ) (config : Configuration) : TagHost τ :=
  (forgeApi s config).tagHost s.forge

/-- The message that the tag command gives its tags. -/
def tagTemplate (config : Configuration) : String :=
  config.tagMessage.getD Tag.defaultMessage

theorem tagsCode_eq_ite (reports : List TagReport) :
    (Report.tagsCode reports).number =
      if ∀ report ∈ reports, report.failed = [] then 0 else 3 := by
  have hall : reports.all TagReport.isSuccess = true ↔ ∀ report ∈ reports, report.failed = [] := by
    simp only [List.all_eq_true, TagReport.isSuccess, List.isEmpty_iff]
  unfold Report.tagsCode
  by_cases h : ∀ report ∈ reports, report.failed = []
  · rw [if_pos h, if_pos (hall.2 h)]
    rfl
  · rw [if_neg h, if_neg fun hsuccess => h (hall.1 hsuccess)]
    rfl

/-- With valid versions, the command ends as the reports on the selected ones say. -/
theorem tag_ends (hload : NamedVersion.load (versionsFile asked config) fs = .ok versions)
    (hselect : Tag.select only versions = .ok selected) (t : τ) :
    tag s config asked only dryRun (fs, t) =
      ({ stdout := Report.tags (Tag.ensureVersions (tagHost s config) (tagTemplate config) dryRun
            selected t).1
         stderr := ""
         code := Report.tagsCode (Tag.ensureVersions (tagHost s config) (tagTemplate config) dryRun
            selected t).1 }, fs,
        (Tag.ensureVersions (tagHost s config) (tagTemplate config) dryRun selected t).2) := by
  have hexecute : beyond (Tag.execute (tagHost s config) (tagTemplate config) only dryRun versions)
      (fs, t) =
        (.ok (Tag.ensureVersions (tagHost s config) (tagTemplate config) dryRun selected t).1, fs,
          (Tag.ensureVersions (tagHost s config) (tagTemplate config) dryRun selected t).2) := by
    simp only [beyond, Tag.execute_of_ok _ _ dryRun hselect]
  simp only [tagHost, tagTemplate] at hexecute
  simp only [tag, bind, StateT.bind, get_state, hload, hexecute]
  rfl

/-- **Reconciling accounts for everything and isolates failures.** The report on a version has one
failed entry for each component whose repository cannot be read, and one entry for each base
repository. On a host that keeps repositories apart, the calls about a base repository and the entry
for it are the same for two versions of the same name that have the same first ref for it, whatever
else the versions hold and whatever becomes of that. And the tag command, once its arguments, the
configuration, the versions and the choice among them are valid, asks for every tag that a selected
version needs, reports on every selected version, and ends with 3 if some report has a failed entry
and with 0 if none has. -/
theorem reconciliation_isolates_failures {ρ : Type} {host : TagHost σ} {part : σ → String → ρ}
    (hapart : host.KeepsApart part) (template : String) (dryRun : Bool) :
    (∀ version s, (Tag.ensureVersion host template dryRun version s).1.Accounts version) ∧
    (∀ version version' base s s', version.name = version'.name →
      version.firstRef? base = version'.firstRef? base → part s base = part s' base →
      callsAbout base ((Tag.ensureVersion host.recorded template dryRun version
          ⟨s, []⟩).2.calls.map Prod.snd) =
        callsAbout base ((Tag.ensureVersion host.recorded template dryRun version'
          ⟨s', []⟩).2.calls.map Prod.snd) ∧
      (Tag.ensureVersion host template dryRun version s).1.about version.invalid.length base =
        (Tag.ensureVersion host template dryRun version' s').1.about
          version'.invalid.length base) ∧
    ∀ (w : Surroundings τ) args a asked only dry config versions selected fs t,
      CommandLine.read args w.environmentFile = .ok a → a.command = .tag asked only dry →
      Configuration.load a.config (workingDirectory fs) fs = .ok config →
      NamedVersion.load (versionsFile asked config) fs = .ok versions →
      Tag.select only versions = .ok selected →
      ∃ reports r, Tag.ensureVersions (tagHost w config).recorded (tagTemplate config) dry selected
          ⟨t, []⟩ = (reports, r) ∧
        (run w args (fs, t)).2 = (fs, r.state) ∧
        (run w args (fs, t)).1.stdout = Report.tags reports ∧
        askedTags r.calls = selected.flatMap (·.neededTags) ∧
        List.Forall₂ TagReport.Accounts selected reports ∧
        (run w args (fs, t)).1.code.number =
          if ∀ report ∈ reports, report.failed = [] then 0 else 3 := by
  refine ⟨fun version s => Tag.ensureVersion_accounts host template dryRun version s,
    fun version version' base s s' hname hfirst hsame => ⟨?_, ?_⟩, ?_⟩
  · exact Tag.calls_isolated hapart template dryRun hname hfirst hsame
  · exact (Tag.ensureVersion_isolated hapart template dryRun hname hfirst hsame).1
  · intro w args a asked only dry config versions selected fs t hread hcommand hconfig hload hselect
    have hrun : run w args (fs, t) = tag w config asked only dry (fs, t) := by
      rw [run_of_read hread, execute_eq, hconfig]
      simp only [hcommand]
    obtain ⟨hanswer, hstate⟩ := Tag.follows_ensureVersions (tagHost w config) (tagTemplate config)
      dry selected ⟨t, []⟩
    have hasks := Tag.ensureVersions_asks (tagHost w config) (tagTemplate config) dry selected
      ⟨t, []⟩
    have haccounts := Tag.ensureVersions_accounts (tagHost w config).recorded (tagTemplate config)
      dry selected ⟨t, []⟩
    refine ⟨_, _, rfl, ?_, ?_, hasks, haccounts, ?_⟩
    · rw [hrun, tag_ends hload hselect, hstate]
    · rw [hrun, tag_ends hload hselect, hanswer]
    · rw [hrun, tag_ends hload hselect, hanswer, tagsCode_eq_ite]

/-! ## A version in which two things go wrong -/

/-- Tags are always missing, and one repository takes none. -/
def stubborn : AnsweringRule where
  tagRef _ _ tag := .error (.forgeStatus "404 Not Found" tag "")
  createTagObject _ repository tag _ _ :=
    if repository = "o/b" then .error (.forgeStatus "403 Forbidden" tag "") else .ok "object"
  createRef _ _ _ _ := .ok ()

/-- A version with a component that cannot be read, one whose repository takes no tags, and two of
one repository that disagree. -/
def troubled : NamedVersion :=
  ⟨"1.0", [⟨"broken", "c3", none⟩, ⟨"o/b", "c2", none⟩, ⟨"o/a", "c1", none⟩,
    ⟨"o/a/part", "c4", none⟩]⟩

/-- A version with one of these components. -/
def untroubled : NamedVersion :=
  ⟨"1.0", [⟨"o/a", "c1", none⟩]⟩

/-- A versions file with a component that cannot be read. -/
def versionsText : String :=
  "versions: [\x7bname: \"1.0\", components: [\x7brepository: broken, ref: c1\x7d]\x7d]\n"

/-- A file system with nothing but the versions file. -/
def versionsOnFile : FileSystem :=
  FileSystem.put ⟨[], []⟩ ["versions"] (.file (.text versionsText))

theorem parseAll_versionsText :
    NamedVersion.parseAll versionsText = .ok [⟨"1.0", [⟨"broken", "c1", none⟩]⟩] := by
  rw [NamedVersion.parseAll, Yaml.readRecord, Yaml.Document.read, Yaml.scan_eq]
  decide +kernel

theorem load_versionsOnFile :
    NamedVersion.load "/versions" versionsOnFile = .ok [⟨"1.0", [⟨"broken", "c1", none⟩]⟩] := by
  have hread : versionsOnFile.readRegular "/versions" "versions file" = .ok versionsText := by
    decide +kernel
  rw [NamedVersion.load, hread]
  simp only [parseAll_versionsText]

theorem read_tagAll : CommandLine.read ["tag", "--versions-file", "/versions"] none =
    .ok ⟨none, none, false, false, .tag (some "/versions") none false⟩ := by
  decide +kernel

theorem reconciliation_isolates_failures_of_trouble :
    callsAbout "o/a" ((Tag.ensureVersion stubborn.host.recorded "" false troubled
        ⟨[], []⟩).2.calls.map Prod.snd) =
      callsAbout "o/a" ((Tag.ensureVersion stubborn.host.recorded "" false untroubled
        ⟨[], []⟩).2.calls.map Prod.snd) ∧
    (Tag.ensureVersion stubborn.host "" false troubled []).1.about 1 "o/a" =
      (Tag.ensureVersion stubborn.host "" false untroubled []).1.about 0 "o/a" ∧
    (run unreached ["tag", "--versions-file", "/versions"] (versionsOnFile, ())).1.code.number =
      3 := by
  obtain ⟨-, hisolated, hcommand⟩ :=
    reconciliation_isolates_failures stubborn.host_keepsApart "" false
  obtain ⟨hcalls, hentries⟩ := hisolated troubled untroubled "o/a" [] [] rfl (by decide +kernel) rfl
  refine ⟨hcalls, hentries, ?_⟩
  obtain ⟨reports, r, -, -, -, -, haccounts, hcode⟩ := hcommand unreached _ _ (some "/versions")
    none false .empty _ _ versionsOnFile () read_tagAll rfl rfl load_versionsOnFile rfl
  rw [hcode, if_neg]
  intro hnone
  obtain ⟨report, rest, hreport, -, rfl⟩ := List.forall₂_cons_left_iff.1 haccounts
  have hinvalid := hreport.invalid
  rw [hnone report List.mem_cons_self] at hinvalid
  cases hinvalid

end Program

end ReleaseCandidates
