import UtilityCss.CommandLine.Program
import UtilityCss.Proofs.AlphaChannels
import UtilityCss.Proofs.DefaultMappings

/-!
# Reports on foreign names

A verdict has one of four statuses: it is deprecated, or else incompatible, or else a warning is
given, or else it is clean. A report counts verdicts by conditions of its own on the same marks.
These part every list of verdicts as the statuses do, so the counts of a report add up, and they
are the numbers of lines that the command prints for each status.

A printed line belongs to a status if it begins with the heading of the status. The sum and the
advice behind the verdicts begin otherwise, and no verdict on a name without blanks has more than
one line.
-/

namespace UtilityCss

namespace Text

section Pieces

variable {cut : Char → Bool}

theorem pieces_ne_nil (t : Text) : pieces cut t ≠ [] := by
  cases t with
  | nil => simp [pieces]
  | cons c rest =>
      rw [pieces]
      split
      · simp
      · split <;> simp

/-- A cut parts a text into two that have their own pieces. -/
theorem pieces_append_cut (first : Text) {c : Char} (hc : cut c = true) (rest : Text) :
    pieces cut (first ++ c :: rest) = pieces cut first ++ pieces cut rest := by
  induction first with
  | nil => simp [pieces, hc]
  | cons d first ih =>
      rw [List.cons_append, pieces, pieces, ih]
      split
      · rfl
      · cases hpieces : pieces cut first with
        | nil => exact absurd hpieces (pieces_ne_nil first)
        | cons piece others => rfl

theorem pieces_of_forall {piece : Text} (hpiece : ∀ c ∈ piece, cut c = false) :
    pieces cut piece = [piece] := by
  induction piece with
  | nil => rfl
  | cons c piece ih =>
      rw [List.forall_mem_cons] at hpiece
      rw [pieces, hpiece.1, ih hpiece.2]
      rfl

end Pieces

end Text

namespace Migration

/-! ## Adding verdicts up -/

theorem percent_le {part total : Nat} (hpart : part ≤ total) : percent part total ≤ 100 := by
  unfold percent
  split
  · exact le_rfl
  · exact Nat.lt_succ_iff.mp ((Nat.div_lt_iff_lt_mul (by omega)).mpr (by omega))

/-- A share in percent is the whole number next to it, the upper one for a half. -/
theorem percent_rounds {part total : Nat} (htotal : 0 < total) :
    2 * total * percent part total ≤ 200 * part + total ∧
      200 * part + total < 2 * total * (percent part total + 1) := by
  rw [percent, if_neg htotal.ne', Nat.mul_comm part, Nat.mul_comm total 2]
  exact ⟨Nat.mul_div_le _ _, Nat.lt_mul_div_succ _ (by omega)⟩

namespace Verdict

/-- The name does not work as it stands, or should not be used. -/
def needsChange (verdict : Verdict) : Bool := verdict.deprecated || !verdict.compatible

/-- Each verdict is clean, only warned of, or one that needs a change. -/
theorem one_kind (verdict : Verdict) :
    (if verdict.isClean then 1 else 0) + (if verdict.isWarned then 1 else 0) +
      (if verdict.needsChange then 1 else 0) = 1 := by
  unfold isClean isWarned needsChange
  cases verdict.compatible <;> cases verdict.deprecated <;> cases verdict.hasWarning <;> rfl

end Verdict

theorem length_eq_kinds (verdicts : List Verdict) :
    verdicts.length = verdicts.countP Verdict.isClean + verdicts.countP Verdict.isWarned +
      verdicts.countP Verdict.needsChange := by
  induction verdicts with
  | nil => rfl
  | cons verdict rest ih =>
      have hone := verdict.one_kind
      simp only [List.countP_cons, List.length_cons]
      omega

/-- The counts of a report add up to those of the verdicts, and its rate is the share of clean
verdicts in percent, with halves rounded up. -/
structure Report.AddsUp (report : Report) (verdicts : List Verdict) : Prop where
  total : report.total = verdicts.length
  parts : report.total = report.compatible + report.warnings.length +
    verdicts.countP fun verdict => verdict.deprecated || !verdict.compatible
  rate_le : report.rate ≤ 100
  rate_of_nothing : report.total = 0 → report.rate = 100
  rate_rounds : 0 < report.total →
    2 * report.total * report.rate ≤ 200 * report.compatible + report.total ∧
      200 * report.compatible + report.total < 2 * report.total * (report.rate + 1)

theorem Report.addsUp_ofVerdicts (verdicts : List Verdict) :
    (Report.ofVerdicts verdicts).AddsUp verdicts where
  total := rfl
  parts := by
    change verdicts.length = verdicts.countP _ + (verdicts.filter _).length + verdicts.countP _
    rw [← List.countP_eq_length_filter]
    exact length_eq_kinds verdicts
  rate_le := percent_le List.countP_le_length
  rate_of_nothing := fun htotal => if_pos htotal
  rate_rounds := percent_rounds

/-! ## Reports by any rules -/

section Rules

variable {rules : List MappingRule} {given : Text} {cache : PatternCache}

theorem given_of_firstVerdict {index : Nat} {verdict : Verdict}
    (hverdict : (firstVerdict given index rules cache).1 = .ok verdict) :
    verdict.given = given := by
  induction rules generalizing index cache with
  | nil =>
      obtain ⟨shape, after, -, hshape⟩ := run_bind_eq_ok hverdict
      split at hshape <;> exact congrArg Verdict.given (Except.ok.inj hshape).symm
  | cons rule rest ih =>
      obtain ⟨pattern, after, -, hrest⟩ := run_bind_eq_ok hverdict
      cases hsearch : pattern.search given with
      | some found =>
          rw [hsearch] at hrest
          exact congrArg Verdict.given (Except.ok.inj hrest).symm
      | none =>
          rw [hsearch] at hrest
          exact ih hrest

/-- Names get one verdict each, in order. -/
theorem given_of_mapClasses {names : List Text} {verdicts : List Verdict}
    (hverdicts : (mapClasses rules [] names cache).1 = .ok verdicts) :
    verdicts.map Verdict.given = names := by
  induction names generalizing cache verdicts with
  | nil => rw [← Except.ok.inj hverdicts, List.map_nil]
  | cons given rest ih =>
      obtain ⟨verdict, next, hverdict, hrest⟩ := run_bind_eq_ok hverdicts
      obtain ⟨others, last, hothers, hall⟩ := run_bind_eq_ok hrest
      have hfirst : (firstVerdict given 0 rules cache).1 = .ok verdict :=
        congrArg Prod.fst hverdict
      rw [← Except.ok.inj hall, List.map_cons, given_of_firstVerdict hfirst,
        ih (congrArg Prod.fst hothers)]

/-- A pattern that can be read is fetched from every cache. -/
theorem exists_fetch {source : Text} (hsource : (Pattern.read? source false).isSome) (key : Text)
    (cache : PatternCache) :
    ∃ pattern after, PatternCache.fetch key (.text source) 0 cache = (.ok pattern, after) := by
  obtain ⟨pattern, hpattern⟩ := Option.isSome_iff_exists.mp hsource
  change ∃ pattern after, cache.lookup key (.text source) 0 = (.ok pattern, after)
  unfold PatternCache.lookup
  split
  · exact ⟨_, _, rfl⟩
  · simp only [PatternCache.pattern?, foldsCase_zero, hpattern]
    exact ⟨_, _, rfl⟩

/-- The pattern of every rule can be read. -/
def Readable (rules : List MappingRule) : Prop :=
  ∀ rule ∈ rules, (Pattern.read? rule.pattern false).isSome

theorem exists_firstVerdict (hrules : Readable rules) (index : Nat) (cache : PatternCache) :
    ∃ verdict after, firstVerdict given index rules cache = (.ok verdict, after) := by
  induction rules generalizing index cache with
  | nil =>
      have hshape : (Pattern.read? shapeSource false).isSome := rfl
      obtain ⟨shape, after, hfetch⟩ := exists_fetch hshape shapeKey cache
      change ∃ verdict after, (PatternCache.fetch shapeKey (.text shapeSource) 0 >>= _) cache = _
      rw [run_bind, hfetch]
      dsimp only
      split <;> exact ⟨_, _, rfl⟩
  | cons rule rest ih =>
      obtain ⟨hrule, hrest⟩ := List.forall_mem_cons.mp hrules
      obtain ⟨pattern, after, hfetch⟩ := exists_fetch hrule (rule.key index) cache
      rw [firstVerdict, run_bind, hfetch]
      dsimp only
      cases pattern.search given with
      | some found => exact ⟨_, _, rfl⟩
      | none => exact ih hrest (index + 1) after

theorem exists_mapClasses (hrules : Readable rules) (names : List Text) (cache : PatternCache) :
    ∃ verdicts after, mapClasses rules [] names cache = (.ok verdicts, after) := by
  induction names generalizing cache with
  | nil => exact ⟨[], cache, rfl⟩
  | cons given rest ih =>
      obtain ⟨verdict, next, hverdict⟩ := @exists_firstVerdict rules given hrules 0 cache
      obtain ⟨others, last, hothers⟩ := ih next
      change ∃ verdicts after, (firstVerdict given 0 rules >>= _) cache = _
      rw [run_bind, hverdict]
      dsimp only
      rw [run_bind, hothers]
      exact ⟨_, _, rfl⟩

end Rules

/-! ## Verdicts in one line -/

/-- No text of the verdict has a line end. -/
structure Verdict.InLine (verdict : Verdict) : Prop where
  given : '\n' ∉ verdict.given
  mapped : ∀ text ∈ verdict.mapped, '\n' ∉ text
  replacement : ∀ text ∈ verdict.replacement, '\n' ∉ text
  warning : ∀ text ∈ verdict.warning, '\n' ∉ text

theorem warnings_inLine :
    defaultRules.all (fun rule => rule.warning.all ('\n' ∉ ·)) = true ∧ '\n' ∉ unknownWarning := by
  unfold defaultRules boxRules surfaceRules effectRules placeRules changeRules keep unknownWarning
  repeat rw [String.toList_ofList]
  decide +kernel

section Names

variable {given : Text}

theorem given_ruling (rules : List MappingRule) (given : Text) :
    (ruling rules given).given = given := by
  rcases ruling_cases rules given with ⟨_, _, _, _, -, -, -, hverdict⟩ | ⟨_, -, hkept⟩
  · rw [hverdict]
    rfl
  · rw [hkept]

/-- The name to use instead of a deprecated one is what it is mapped to. -/
theorem mapped_of_replacement {rules : List MappingRule} {text : Text}
    (htext : (ruling rules given).replacement = some text) :
    (ruling rules given).mapped = some text := by
  rcases ruling_cases rules given with ⟨rule, _, _, found, -, -, -, hverdict⟩ | ⟨_, -, hkept⟩
  · rw [hverdict] at htext ⊢
    simp only [MappingRule.verdict] at htext ⊢
    split at htext
    · exact (Option.filter_eq_some_iff.mp htext).1
    · cases htext
  · rw [hkept] at htext
    cases htext

theorem warning_inLine {text : Text} (htext : (ruling defaultRules given).warning = some text) :
    '\n' ∉ text := by
  rcases ruling_cases defaultRules given with
    ⟨rule, _, _, _, hrules, -, -, hverdict⟩ | ⟨warning, hwarning, hkept⟩
  · rw [hverdict] at htext
    have hrule := List.all_eq_true.mp warnings_inLine.1 rule (by simp [hrules])
    have hwarning : rule.warning = some text := htext
    simpa [hwarning] using hrule
  · rw [hkept] at htext
    obtain rfl : warning = some text := htext
    rcases List.mem_pair.mp hwarning with hnone | hunknown
    · cases hnone
    · exact Option.some.inj hunknown ▸ warnings_inLine.2

theorem inLine_ruling (hgiven : ∀ c ∈ given, Text.isBlank c = false) :
    (ruling defaultRules given).InLine := by
  have hline : '\n' ∉ given := by
    intro hmem
    cases hgiven '\n' hmem
  have hmapped : ∀ text ∈ (ruling defaultRules given).mapped, '\n' ∉ text := by
    intro text htext
    obtain ⟨style, ending, -, -, -, rfl, rfl⟩ := divided_of_mapped hgiven htext
    simpa using hline
  exact ⟨by rwa [given_ruling], hmapped, fun text htext => hmapped text (mapped_of_replacement htext),
    fun text => warning_inLine⟩

theorem extractClasses_of_solid (hne : given ≠ []) (hgiven : ∀ c ∈ given, Text.isBlank c = false) :
    extractClasses given = [given] := by
  rw [extractClasses, Text.words, Text.pieces_of_forall hgiven]
  simpa using hne

end Names

end Migration

namespace CommandLine

open Migration

/-! ## Statuses -/

/-- The status, as a condition on the marks of a verdict. -/
def Status.appliesTo (status : Status) (verdict : Verdict) : Bool :=
  match status with
  | .deprecated => verdict.deprecated
  | .incompatible => !verdict.deprecated && !verdict.compatible
  | .warning => verdict.isWarned
  | .ok => verdict.isClean

theorem Status.appliesTo_eq (status : Status) (verdict : Verdict) :
    status.appliesTo verdict = decide (Status.ofVerdict verdict = status) := by
  unfold ofVerdict appliesTo Verdict.isWarned Verdict.isClean
  cases status <;> cases verdict.deprecated <;> cases verdict.compatible <;>
    cases verdict.hasWarning <;> rfl

/-- What the line for a verdict of a status begins with. -/
def Status.heading (status : Status) : Text := Text.padRight 12 status.label ++ " "

/-- The printed lines that begin with the heading of a status. -/
def statusLines (status : Status) (output : Text) : List Text :=
  (Text.pieces (· == '\n') output).filter (Text.startsWith · status.heading)

theorem pieces_lines (content : List Text) :
    Text.pieces (· == '\n') (lines content) =
      content.flatMap (Text.pieces (· == '\n')) ++ [[]] := by
  induction content with
  | nil => rfl
  | cons line rest ih =>
      change Text.pieces _ ((line ++ ['\n']) ++ lines rest) = _
      rw [List.append_assoc, List.singleton_append, Text.pieces_append_cut _ rfl, ih,
        List.flatMap_cons, List.append_assoc]

theorem pieces_of_inLine {line : Text} (hline : '\n' ∉ line) :
    Text.pieces (· == '\n') line = [line] := by
  apply Text.pieces_of_forall
  intro c hc
  simpa using fun hsame : c = '\n' => hline (hsame ▸ hc)

theorem startsWith_heading (status other : Status) (rest : Text) :
    Text.startsWith (other.heading ++ rest) status.heading = decide (other = status) := by
  cases status <;> cases other <;> rfl

/-- The characters that headings begin with. -/
def headingStarts : List Char := ['D', 'I', 'W', 'O']

theorem startsWith_heading_of_start {c : Char} (hc : c ∉ headingStarts) (rest : Text)
    (status : Status) : Text.startsWith (c :: rest) status.heading = false := by
  have hother {first : Char} {more : Text} (hfirst : first ∈ headingStarts) :
      Text.startsWith (c :: rest) (first :: more) = false := by
    have hne : (first == c) = false := beq_false_of_ne fun hsame => hc (hsame ▸ hfirst)
    rw [Text.startsWith, List.isPrefixOf, hne, Bool.false_and]
  cases status with
  | deprecated => exact hother (by decide)
  | incompatible => exact hother (by decide)
  | warning => exact hother (by decide)
  | ok => exact hother (by decide)

/-- No part of the text is a line of a status. -/
def Plain (line : Text) : Prop :=
  ∀ piece ∈ Text.pieces (· == '\n') line, ∀ status : Status,
    Text.startsWith piece status.heading = false

theorem plain_nil : Plain [] := by
  intro piece hpiece status
  rw [List.mem_singleton.mp hpiece]
  cases status <;> rfl

/-- The text begins a line, and not one of a status. -/
def opensPlain (lead : Text) : Bool := lead.head?.any (· ∉ headingStarts) && '\n' ∉ lead

theorem plain_append {lead rest : Text} (hlead : opensPlain lead = true) (hrest : '\n' ∉ rest) :
    Plain (lead ++ rest) := by
  cases lead with
  | nil => cases hlead
  | cons c lead =>
      simp only [opensPlain, List.head?_cons, Option.any_some, Bool.and_eq_true,
        decide_eq_true_eq] at hlead
      intro piece hpiece
      have hline : '\n' ∉ c :: lead ++ rest := List.not_mem_append hlead.2 hrest
      rw [pieces_of_inLine hline, List.mem_singleton] at hpiece
      exact hpiece ▸ startsWith_heading_of_start hlead.1 (lead ++ rest)

theorem Plain.newline {line : Text} (hline : Plain line) : Plain ('\n' :: line) := by
  intro piece hpiece
  rw [← List.nil_append ('\n' :: line), Text.pieces_append_cut [] rfl] at hpiece
  rcases List.mem_append.mp hpiece with hpiece | hpiece
  · exact plain_nil piece hpiece
  · exact hline piece hpiece

theorem filter_of_plain {content : List Text} (hcontent : ∀ line ∈ content, Plain line)
    (status : Status) :
    (content.flatMap (Text.pieces (· == '\n'))).filter (Text.startsWith · status.heading) = [] := by
  rw [List.filter_eq_nil_iff]
  intro piece hpiece
  obtain ⟨line, hline, hpiece⟩ := List.mem_flatMap.mp hpiece
  simp [hcontent line hline piece hpiece status]

/-! ## What the command prints -/

theorem verdictLine_eq (verdict : Verdict) :
    ∃ rest, verdictLine verdict = (Status.ofVerdict verdict).heading ++ rest := by
  unfold verdictLine
  exact ⟨_, by rw [List.append_assoc, List.append_assoc, Status.heading]⟩

theorem inLine_verdictLine {verdict : Verdict} (hverdict : verdict.InLine) :
    '\n' ∉ verdictLine verdict := by
  have hlabel : '\n' ∉ Text.padRight 12 (Status.ofVerdict verdict).label := by
    cases Status.ofVerdict verdict <;> decide
  unfold verdictLine
  simp only [List.mem_append, not_or]
  refine ⟨⟨⟨⟨hlabel, by decide⟩, hverdict.given⟩, ?_⟩, ?_⟩
  · split
    next mapped hmapped =>
      simpa using hverdict.mapped mapped (Option.filter_eq_some_iff.mp hmapped).1
    next => simp
  · split
    next warning hwarning =>
      simpa using hverdict.warning warning (Option.filter_eq_some_iff.mp hwarning).1
    next => simp

theorem newline_not_mem_ofNat (n : Nat) : '\n' ∉ Text.ofNat n :=
  Text.not_mem_ofNat (by decide) n

section Verdicts

variable {verdicts : List Verdict} (hverdicts : ∀ verdict ∈ verdicts, verdict.InLine)

include hverdicts

theorem plain_deprecatedAdvice : ∀ line ∈ deprecatedAdvice verdicts, Plain line := by
  unfold deprecatedAdvice
  dsimp only
  split
  · simp
  · simp only [List.mem_append, List.mem_cons, List.mem_map, List.append_assoc]
    rintro line ((rfl | ⟨verdict, hverdict, rfl⟩) | hmore)
    · exact plain_append (by decide) (by simp [newline_not_mem_ofNat])
    · have hinLine := hverdicts verdict (List.mem_of_mem_filter (List.mem_of_mem_take hverdict))
      refine plain_append (by decide) ?_
      have hreplaced : '\n' ∉ (verdict.replacement.filter (· ≠ [])).getD "see warning" := by
        cases hfilter : verdict.replacement.filter (· ≠ []) with
        | none => decide
        | some text => exact hinLine.replacement text (Option.filter_eq_some_iff.mp hfilter).1
      simpa [hinLine.given] using hreplaced
    · split at hmore
      · rw [List.mem_singleton.mp hmore]
        exact plain_append (by decide) (by simp [newline_not_mem_ofNat])
      · cases hmore

theorem plain_warningAdvice : ∀ line ∈ warningAdvice verdicts, Plain line := by
  unfold warningAdvice
  dsimp only
  split
  · simp
  · simp only [List.mem_cons, List.mem_map, List.append_assoc]
    rintro line (rfl | ⟨text, htext, rfl⟩)
    · exact (plain_append (by decide) (by simp [newline_not_mem_ofNat])).newline
    · have hwarning := List.mem_eraseDups.mp (List.mem_of_mem_take htext)
      obtain ⟨verdict, hverdict, hsome⟩ := List.mem_filterMap.mp hwarning
      have hinLine := hverdicts verdict (List.mem_of_mem_filter hverdict)
      exact plain_append (by decide) (hinLine.warning text hsome)

theorem plain_suggestions : ∀ line ∈ suggestions verdicts, Plain line := by
  intro line hline
  rcases List.mem_append.mp hline with hline | hgroup
  · rcases List.mem_append.mp hline with hdeprecated | hwarning
    · exact plain_deprecatedAdvice hverdicts line hdeprecated
    · exact plain_warningAdvice hverdicts line hwarning
  · unfold groupAdvice at hgroup
    split at hgroup
    · rcases List.mem_pair.mp hgroup with rfl | rfl
      · exact (@plain_append "Tip: Use variant groups for cleaner hover states:" [] (by decide)
          (by simp)).newline
      · exact @plain_append "  hover:(bg-blue-500 text-white scale-105)" [] (by decide) (by simp)
    · cases hgroup

/-- The lines of a status are those for the verdicts of that status, in order. -/
theorem statusLines_migration (status : Status) :
    statusLines status (migration verdicts) =
      (verdicts.filter status.appliesTo).map verdictLine := by
  have hplain : ∀ line ∈ [[], ("Summary: " : Text) ++ (Report.ofVerdicts verdicts).summary] ++
      (if suggestions verdicts = [] then [] else [] :: suggestions verdicts), Plain line := by
    simp only [List.mem_append, List.mem_cons, List.not_mem_nil, or_false]
    rintro line ((rfl | rfl) | hmore)
    · exact plain_nil
    · exact plain_append (by decide) (by simp [Report.summary, newline_not_mem_ofNat])
    · split at hmore
      · cases hmore
      · rcases List.mem_cons.mp hmore with rfl | hline
        · exact plain_nil
        · exact plain_suggestions hverdicts line hline
  have hlines : (verdicts.map verdictLine).flatMap (Text.pieces (· == '\n')) =
      verdicts.map verdictLine := by
    rw [List.flatMap_map]
    conv_rhs => rw [← List.flatMap_singleton' verdicts, List.map_flatMap]
    refine List.flatMap_congr fun verdict hverdict => ?_
    exact pieces_of_inLine (inLine_verdictLine (hverdicts verdict hverdict))
  have hstatus : ∀ verdict ∈ verdicts,
      Text.startsWith (verdictLine verdict) status.heading = status.appliesTo verdict := by
    intro verdict _
    obtain ⟨rest, hrest⟩ := verdictLine_eq verdict
    rw [hrest, startsWith_heading, Status.appliesTo_eq]
  have hend : ([[]] : List Text).filter (Text.startsWith · status.heading) = [] := by
    cases status <;> rfl
  rw [statusLines, migration, List.append_assoc, pieces_lines, List.flatMap_append, hlines,
    List.filter_append, List.filter_append, filter_of_plain hplain, hend, List.append_nil,
    List.append_nil, List.filter_map]
  exact congrArg (List.map verdictLine) (List.filter_congr hstatus)

end Verdicts

theorem run_migrate (args : List Text) :
    run ("migrate" :: args) = withOperands {} args fun arguments => migrate arguments.operands :=
  rfl

/-- However the names are given as operands, the verdicts on them are printed. -/
theorem run_migrate_of_operands (engine : Engine) {names args : List Text} (hne : names ≠ [])
    (hnames : ∀ name ∈ names, name ≠ [] ∧ ∀ c ∈ name, Text.isBlank c = false)
    (hargs : (Arguments.read? {} true args).map Arguments.operands = some names) :
    run ("migrate" :: args) = { output := migration (names.map (ruling defaultRules)) } := by
  obtain ⟨arguments, hread, rfl⟩ := Option.map_eq_some_iff.mp hargs
  have hextract : arguments.operands.flatMap extractClasses = arguments.operands := by
    conv_rhs => rw [← List.flatMap_singleton' arguments.operands]
    refine List.flatMap_congr fun name hname => ?_
    exact extractClasses_of_solid (hnames name hname).1 (hnames name hname).2
  have hverdicts := (engine.settles_mapClasses arguments.operands {}
    (PatternCache.faithful_empty _)).1
  rw [run_migrate, withOperands, hread]
  dsimp only
  rw [if_neg hne, migrate, hextract, hverdicts]

/-- By rules whose patterns can be read, every list of names gets a report, and every report adds
up. By the default rules, a report on names without blanks agrees with what the command prints for
them: it has as many clean, warned and deprecated names as there are lines of these statuses, and
the other lines are those of the incompatible names that are not deprecated. All names can be
given to the command, if need be behind two dashes. -/
theorem report_adds_up :
    (∀ (rules : List MappingRule) (names : List Text) (cache : PatternCache),
      (Readable rules → ∃ report, (analyze rules names cache).1 = .ok report) ∧
      ∀ report, (analyze rules names cache).1 = .ok report →
        ∃ verdicts, (mapClasses rules [] names cache).1 = .ok verdicts ∧
          verdicts.map Verdict.given = names ∧ report.AddsUp verdicts) ∧
    ∀ (engine : Engine) (history : List Call) (names : List Text), names ≠ [] →
      (∀ name ∈ names, name ≠ [] ∧ ∀ c ∈ name, Text.isBlank c = false) →
      ∃ report, (engine.perform (.analyze names) (engine.after history)).1 = .ok report ∧
        (Arguments.read? {} true ("--" :: names)).map Arguments.operands = some names ∧
        ∀ args, (Arguments.read? {} true args).map Arguments.operands = some names →
          ∃ output, run ("migrate" :: args) = { exitCode := 0, output, error := none } ∧
            (statusLines .ok output).length = report.compatible ∧
            (statusLines .warning output).length = report.warnings.length ∧
            (statusLines .deprecated output).length = report.deprecated.length ∧
            statusLines .incompatible output =
              (report.incompatible.filter (!·.deprecated)).map verdictLine := by
  constructor
  · intro rules names cache
    constructor
    · intro hrules
      obtain ⟨verdicts, after, hverdicts⟩ := exists_mapClasses hrules names cache
      refine ⟨Report.ofVerdicts verdicts, ?_⟩
      rw [analyze, run_bind, hverdicts]
      rfl
    · intro report hreport
      obtain ⟨verdicts, after, hverdicts, hsum⟩ := run_bind_eq_ok hreport
      have hmapped : (mapClasses rules [] names cache).1 = .ok verdicts := by rw [hverdicts]
      obtain rfl := Except.ok.inj hsum
      exact ⟨verdicts, hmapped, given_of_mapClasses hmapped, Report.addsUp_ofVerdicts verdicts⟩
  · intro engine history names hne hnames
    refine ⟨_, engine.analyze_after history names, rfl, ?_⟩
    intro args hargs
    have hinLine : ∀ verdict ∈ names.map (ruling defaultRules), verdict.InLine := by
      intro verdict hverdict
      obtain ⟨name, hname, rfl⟩ := List.mem_map.mp hverdict
      exact inLine_ruling (hnames name hname).2
    refine ⟨_, run_migrate_of_operands engine hne hnames hargs, ?_, ?_, ?_, ?_⟩
    · rw [statusLines_migration hinLine, List.length_map, ← List.countP_eq_length_filter]
      rfl
    · rw [statusLines_migration hinLine, List.length_map]
      rfl
    · rw [statusLines_migration hinLine, List.length_map]
      rfl
    · rw [statusLines_migration hinLine, Report.ofVerdicts, List.filter_filter]
      rfl

/-- A rule that refuses the names that begin with an `x`. -/
def refusingRule : MappingRule where
  pattern := "^x"
  replacement := .template sameTemplate
  compatible := false

/-- One clean name of eight is a rate of thirteen percent. Of four names, one of which has to stand
behind two dashes, the command prints two as clean, one with a warning and one as deprecated. -/
theorem report_adds_up_mixed :
    (Readable [refusingRule] ∧ ∃ report verdicts,
      (analyze [refusingRule] ("Y" :: List.replicate 7 "x") {}).1 = .ok report ∧
      (mapClasses [refusingRule] [] ("Y" :: List.replicate 7 "x") {}).1 = .ok verdicts ∧
      report.AddsUp verdicts ∧ report.total = 8 ∧ report.compatible = 1 ∧ report.rate = 13) ∧
    ∃ names : List Text, names = ["flex", "card", "divide-x-2", "-mt-2"] ∧
      (∀ name ∈ names, name ≠ [] ∧ ∀ c ∈ name, Text.isBlank c = false) ∧
      ∃ output, run ["migrate", "flex", "card", "--", "divide-x-2", "-mt-2"] = { output } ∧
        (statusLines .ok output).length = 2 ∧ (statusLines .warning output).length = 1 ∧
        (statusLines .deprecated output).length = 1 ∧ statusLines .incompatible output = [] := by
  constructor
  · have hreadable : Readable [refusingRule] := by
      intro rule hrule
      rw [List.mem_singleton.mp hrule]
      rfl
    have hreports := report_adds_up.1 [refusingRule] ("Y" :: List.replicate 7 "x") {}
    obtain ⟨report, hreport⟩ := hreports.1 hreadable
    obtain ⟨verdicts, hverdicts, -, hsum⟩ := hreports.2 report hreport
    have hcounts : (analyze [refusingRule] ("Y" :: List.replicate 7 "x") {}).1.toOption.map
        (fun report => (report.total, report.compatible, report.rate)) = some (8, 1, 13) := by
      decide +kernel
    rw [hreport] at hcounts
    simp only [Except.toOption, Option.map_some, Option.some.injEq, Prod.mk.injEq] at hcounts
    exact ⟨hreadable, report, verdicts, hreport, hverdicts, hsum, hcounts⟩
  · have hnames : ∀ name ∈ ([("flex" : Text), "card", "divide-x-2", "-mt-2"] : List Text),
        name ≠ [] ∧ ∀ c ∈ name, Text.isBlank c = false := by
      have hall : [("flex" : Text), "card", "divide-x-2", "-mt-2"].all
          (fun name => name ≠ [] && name.all (!Text.isBlank ·)) = true := by decide
      simpa only [List.all_eq_true, Bool.and_eq_true, decide_eq_true_eq,
        Bool.not_eq_true'] using hall
    refine ⟨_, rfl, hnames, ?_⟩
    obtain ⟨report, hreport, -, hprinted⟩ := report_adds_up.2 bareEngine [] _ (by simp) hnames
    obtain ⟨output, houtput, hok, hwarning, hdeprecated, hincompatible⟩ := hprinted
      ["flex", "card", "--", "divide-x-2", "-mt-2"] rfl
    refine ⟨output, houtput, ?_⟩
    have hsame := Except.ok.inj ((bareEngine.analyze_after [] _).symm.trans hreport)
    rw [hok, hwarning, hdeprecated, hincompatible, ← hsame]
    unfold defaultRules boxRules surfaceRules effectRules placeRules changeRules keep
    repeat rw [String.toList_ofList]
    decide +kernel

end CommandLine

end UtilityCss
