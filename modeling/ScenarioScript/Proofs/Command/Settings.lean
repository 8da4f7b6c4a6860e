import Mathlib.Data.List.Forall2
import Mathlib.Data.List.TakeWhile
import ScenarioScript.Proofs.Command.Spelling

/-!
# What settings mean

Settings are in order if each value can be read and there is one source. Then they are arguments.
-/

namespace ScenarioScript

namespace Arguments

/-! ## Values -/

/-- A name and a number with the first equals sign between them, and blanks around both. -/
def Defines (definition : String) (entry : String × Float) : Prop :=
  ∃ before after, definition.toList = before ++ '=' :: after ∧ '=' ∉ before ∧
    entry.1 = String.ofList (trim before) ∧ entry.1 ≠ "" ∧ Number.readChars? (trim after) = some entry.2

/-- Decimal digits for a number of 64 bits, which may have a plus before them. -/
def Counts (value : String) (count : Nat) : Prop :=
  ∃ digits, (value.toList = digits ∨ value.toList = '+' :: digits) ∧ digits ≠ [] ∧
    (∀ c ∈ digits, c.isDigit = true) ∧ Number.digitsValue digits = count ∧ count < UInt64.size

theorem span_equals {text before after : List Char} (htext : text = before ++ '=' :: after) (hbefore : '=' ∉ before) :
    text.takeWhile (· ≠ '=') = before ∧ text.dropWhile (· ≠ '=') = '=' :: after := by
  subst htext
  have hall (c : Char) (hc : c ∈ before) : decide (c ≠ '=') = true := by
    simpa using ne_of_mem_of_not_mem hc hbefore
  constructor
  · rw [List.takeWhile_append_of_pos hall]
    simp
  · rw [List.dropWhile_append_of_pos hall]
    simp

theorem eq_of_dropWhile_equals {c : Char} {text after : List Char} (h : text.dropWhile (· ≠ '=') = c :: after) :
    text = text.takeWhile (· ≠ '=') ++ '=' :: after ∧ '=' ∉ text.takeWhile (· ≠ '=') := by
  have hhead := List.head?_dropWhile_not (fun c => decide (c ≠ '=')) text
  rw [h] at hhead
  obtain rfl : c = '=' := by simpa using hhead
  constructor
  · rw [← h, List.takeWhile_append_dropWhile]
  · intro hmem
    simpa using List.mem_takeWhile_imp hmem

theorem readDefinition_eq_ok_iff {definition : String} {entry : String × Float} :
    readDefinition definition = .ok entry ↔ Defines definition entry := by
  obtain ⟨name, x⟩ := entry
  constructor
  · intro h
    unfold readDefinition at h
    dsimp only at h
    split at h
    · simp at h
    · next c after hafter =>
      obtain ⟨htext, hbefore⟩ := eq_of_dropWhile_equals hafter
      refine ⟨_, after, htext, hbefore, ?_⟩
      split at h
      · simp at h
      · next hname =>
        split at h
        · next hx =>
          obtain ⟨rfl, rfl⟩ : String.ofList (trim (definition.toList.takeWhile (· ≠ '='))) = name ∧ _ = x := by
            simpa using h
          exact ⟨rfl, hname, hx⟩
        · simp at h
  · rintro ⟨before, after, htext, hbefore, rfl, hname, hx⟩
    obtain ⟨htake, hdrop⟩ := span_equals htext hbefore
    unfold readDefinition
    simp only [hdrop, htake, if_neg hname, hx]

theorem readTicks_eq_ok_iff {value : String} {count : Nat} :
    readTicks value = .ok count ↔ Counts value count := by
  have hdigits (digits : List Char) :
      (if digits ≠ [] ∧ digits.all Char.isDigit ∧ Number.digitsValue digits < tickLimit then
        Except.ok (Number.digitsValue digits) else .error (UsageError.badTicks value)) = .ok count ↔
      digits ≠ [] ∧ (∀ c ∈ digits, c.isDigit = true) ∧ Number.digitsValue digits = count ∧ count < UInt64.size := by
    simp only [ite_eq_iff, Except.ok.injEq, reduceCtorEq, and_false, or_false, List.all_eq_true, and_assoc]
    refine and_congr_right fun _ => and_congr_right fun _ => ?_
    constructor
    · rintro ⟨hlimit, rfl⟩
      exact ⟨rfl, hlimit⟩
    · rintro ⟨rfl, hlimit⟩
      exact ⟨hlimit, rfl⟩
  unfold readTicks Counts
  dsimp only
  split
  · next digits hvalue =>
    rw [hdigits, hvalue]
    constructor
    · exact fun h => ⟨digits, .inr rfl, h⟩
    · rintro ⟨others, rfl | hothers, h⟩
      · exact absurd (h.2.1 '+' List.mem_cons_self) (by decide)
      · exact (List.cons.inj hothers).2 ▸ h
  · next hplus =>
    rw [hdigits]
    constructor
    · exact fun h => ⟨_, .inl rfl, h⟩
    · rintro ⟨digits, rfl | hvalue, h⟩
      · exact h
      · exact (hplus digits hvalue).elim

/-! ## What the settings mean -/

/-- The values that follow one of the letters, in order. -/
def valuesOf (flag : ValueFlag) (settings : List Setting) : List String :=
  settings.filterMap fun
    | .value other text => if other = flag then some text else none
    | _ => none

def pathsOf (settings : List Setting) : List String :=
  settings.filterMap fun
    | .file path => some path
    | _ => none

section
variable {flag other : ValueFlag} {text : String} {settings : List Setting}

@[simp]
theorem valuesOf_nil : valuesOf flag [] = [] := rfl

@[simp]
theorem valuesOf_quiet : valuesOf flag (.quiet :: settings) = valuesOf flag settings := rfl

@[simp]
theorem valuesOf_file : valuesOf flag (.file text :: settings) = valuesOf flag settings := rfl

@[simp]
theorem valuesOf_value : valuesOf flag (.value other text :: settings) =
    if other = flag then text :: valuesOf flag settings else valuesOf flag settings := by
  by_cases h : other = flag <;> simp [valuesOf, h]

@[simp]
theorem pathsOf_nil : pathsOf [] = [] := rfl

@[simp]
theorem pathsOf_quiet : pathsOf (.quiet :: settings) = pathsOf settings := rfl

@[simp]
theorem pathsOf_value : pathsOf (.value flag text :: settings) = pathsOf settings := rfl

@[simp]
theorem pathsOf_file : pathsOf (.file text :: settings) = text :: pathsOf settings := rfl

end

/-- There is one file and no expression, or no file and the last expression counts. -/
inductive IsSource : List String → List String → Source → Prop
  | file (path : String) : IsSource [path] [] (.file path)
  | inline (earlier : List String) (text : String) : IsSource [] (earlier ++ [text]) (.inline text)

/-- Settings that are all in order, and the arguments that they give. -/
structure Means (settings : List Setting) (arguments : Arguments) : Prop where
  defines : List.Forall₂ Defines (valuesOf .define settings) arguments.defines
  ticks : ∃ counts, List.Forall₂ Counts (valuesOf .ticks settings) counts ∧ arguments.ticks = counts.getLastD 1
  isQuiet : arguments.isQuiet = true ↔ .quiet ∈ settings
  source : IsSource (pathsOf settings) (valuesOf .expression settings) arguments.source

end Arguments

namespace Options

open Arguments

/-- What settings make of options. -/
@[mk_iff]
structure Takes (options : Options) (settings : List Setting) (final : Options) : Prop where
  defines : ∃ entries, List.Forall₂ Defines (valuesOf .define settings) entries ∧
    final.defines = options.defines ++ entries
  ticks : ∃ counts, List.Forall₂ Counts (valuesOf .ticks settings) counts ∧
    final.ticks = counts.getLastD options.ticks
  isQuiet : final.isQuiet = true ↔ options.isQuiet = true ∨ .quiet ∈ settings
  expression : final.expression = (valuesOf .expression settings).getLast?.or options.expression
  files : final.files = options.files ++ pathsOf settings

section
variable {options final : Options} {settings : List Setting}

theorem takes_nil : options.Takes [] final ↔ final = options := by
  obtain ⟨defines, ticks, isQuiet, expression, files⟩ := options
  obtain ⟨finalDefines, finalTicks, finalIsQuiet, finalExpression, finalFiles⟩ := final
  simp [takes_iff]

theorem add_define_eq_ok_iff {text : String} : options.add (.value .define text) = .ok final ↔
    ∃ entry, Defines text entry ∧ final = { options with defines := options.defines ++ [entry] } := by
  unfold add set
  rw [except_bind_eq_ok_iff]
  simp only [readDefinition_eq_ok_iff, pure, Except.pure, Except.ok.injEq, eq_comm (b := final)]

theorem add_ticks_eq_ok_iff {text : String} : options.add (.value .ticks text) = .ok final ↔
    ∃ count, Counts text count ∧ final = { options with ticks := count } := by
  unfold add set
  rw [except_bind_eq_ok_iff]
  simp only [readTicks_eq_ok_iff, pure, Except.pure, Except.ok.injEq, eq_comm (b := final)]

theorem takes_cons {setting : Setting} :
    options.Takes (setting :: settings) final ↔
      ∃ next, options.add setting = .ok next ∧ next.Takes settings final := by
  cases setting with
  | quiet => simp [takes_iff, add]
  | value flag text =>
    cases flag with
    | define =>
      simp only [add_define_eq_ok_iff, takes_iff, valuesOf_value, pathsOf_value]
      constructor
      · rintro ⟨⟨entries, hentries, hdefines⟩, hrest⟩
        obtain ⟨entry, others, hentry, hothers, rfl⟩ := List.forall₂_cons_left_iff.1 hentries
        exact ⟨_, ⟨entry, hentry, rfl⟩, ⟨others, hothers, by simpa using hdefines⟩, by simpa using hrest⟩
      · rintro ⟨_, ⟨entry, hentry, rfl⟩, ⟨entries, hentries, hdefines⟩, hrest⟩
        exact ⟨⟨entry :: entries, .cons hentry hentries, by simpa using hdefines⟩, by simpa using hrest⟩
    | ticks =>
      simp only [add_ticks_eq_ok_iff, takes_iff, valuesOf_value, pathsOf_value]
      constructor
      · rintro ⟨hdefines, ⟨counts, hcounts, hticks⟩, hrest⟩
        obtain ⟨count, others, hcount, hothers, rfl⟩ := List.forall₂_cons_left_iff.1 hcounts
        rw [List.getLastD_cons] at hticks
        exact ⟨_, ⟨count, hcount, rfl⟩, hdefines, ⟨others, hothers, hticks⟩, by simpa using hrest⟩
      · rintro ⟨_, ⟨count, hcount, rfl⟩, hdefines, ⟨counts, hcounts, hticks⟩, hrest⟩
        rw [← List.getLastD_cons (b := count)] at hticks
        exact ⟨hdefines, ⟨count :: counts, .cons hcount hcounts, hticks⟩, by simpa using hrest⟩
    | expression => simp [takes_iff, add, set, List.getLast?_cons]
  | file path => simp [takes_iff, add, addFiles]

theorem foldlM_eq_ok_iff : settings.foldlM add options = .ok final ↔ options.Takes settings final := by
  induction settings generalizing options with
  | nil =>
    rw [takes_nil, List.foldlM_nil]
    simp [pure, Except.pure, eq_comm]
  | cons setting settings ih => simp only [List.foldlM_cons, except_bind_eq_ok_iff, takes_cons, ih]

theorem source_eq_ok_iff {origin : Source} {texts : List String} (htexts : options.expression = texts.getLast?) :
    options.source = .ok origin ↔ IsSource options.files texts origin := by
  constructor
  · intro h
    unfold Options.source at h
    split at h
    · simp at h
    · next text hfiles htext =>
      obtain ⟨earlier, rfl⟩ := List.getLast?_eq_some_iff.1 (htexts.symm.trans htext)
      obtain rfl : Source.inline text = origin := by simpa using h
      exact hfiles ▸ .inline earlier text
    · next path hfiles hnone =>
      obtain rfl := List.getLast?_eq_none_iff.1 (htexts.symm.trans hnone)
      obtain rfl : Source.file path = origin := by simpa using h
      exact hfiles ▸ .file path
    · simp at h
    · simp at h
  · obtain ⟨defines, ticks, isQuiet, expression, files⟩ := options
    intro h
    cases h with
    | file path =>
      obtain rfl : expression = none := htexts
      rfl
    | inline earlier text =>
      obtain rfl : expression = some text := by simpa using htexts
      rfl

end

end Options

/-! ## All arguments -/

namespace Arguments

theorem parse_eq_ok_iff {argv : List String} {settings : List Setting} (h : Spelled settings argv)
    {arguments : Arguments} : parse argv = .ok arguments ↔ Means settings arguments := by
  unfold parse
  rw [Options.read_spelled h]
  simp only [except_bind_eq_ok_iff, Options.foldlM_eq_ok_iff]
  constructor
  · rintro ⟨options, ⟨⟨entries, hentries, hdefines⟩, hticks, hquiet, hexpression, hfiles⟩, origin, hsource, hpure⟩
    obtain rfl := Except.ok.inj hpure
    obtain rfl : options.defines = entries := hdefines
    refine ⟨hentries, hticks, by simpa [Options.initial] using hquiet, ?_⟩
    rw [Options.source_eq_ok_iff (by simpa [Options.initial] using hexpression), hfiles] at hsource
    exact hsource
  · rintro ⟨hdefines, hticks, hquiet, hsource⟩
    -- Of the options only the expression and the files are not in the arguments themselves.
    let options : Options := ⟨arguments.defines, arguments.ticks, arguments.isQuiet,
      (valuesOf .expression settings).getLast?, pathsOf settings⟩
    have htakes : Options.initial.Takes settings options :=
      ⟨⟨_, hdefines, rfl⟩, hticks, by simpa [Options.initial] using hquiet, by simp [Options.initial, options], rfl⟩
    exact ⟨options, htakes, arguments.source, (Options.source_eq_ok_iff rfl).2 hsource, rfl⟩

/-- Arguments are read if they are a spelling of settings that are in order, and as what these mean. A value can be
written behind its letter or as the next argument, wherever the letter is neither behind `--` nor itself in the value
of another one. -/
theorem parse_spelled :
    (∀ argv arguments,
      parse argv = .ok arguments ↔ ∃ settings, Spelled settings argv ∧ Means settings arguments) ∧
    ∀ front rest count flag text, text ≠ "" → ¬ IsEnded front → ¬ IsPending front →
      parse (front ++ row count (ValueFlag.letter flag :: text.toList) :: rest) =
        parse (front ++ row count [flag.letter] :: text :: rest) := by
  constructor
  · intro argv arguments
    constructor
    · intro h
      obtain ⟨options, hread, -⟩ := except_bind_eq_ok_iff.1 h
      obtain ⟨settings, hspelled⟩ := Options.exists_spelled_of_read hread
      exact ⟨settings, hspelled, (parse_eq_ok_iff hspelled).1 h⟩
    · rintro ⟨settings, hspelled, hmeans⟩
      exact (parse_eq_ok_iff hspelled).2 hmeans
  · intro front rest count flag text htext hended hpending
    unfold parse
    rw [Options.read_joined_eq_apart rest htext hended hpending]

theorem parse_spelled_allLetters :
    (∃ arguments, parse ["-D", "v = 1", "-qt", "+5", "-t7", "--", "-x.scn"] = .ok arguments ∧
      arguments.defines.map Prod.fst = ["v"] ∧ arguments.ticks = 7 ∧ arguments.isQuiet = true ∧
      arguments.source = .file "-x.scn") ∧
    parse ["x.scn", "-qt5", "-e"] = parse ["x.scn", "-qt", "5", "-e"] := by
  have hitems : Items [.value .define "v = 1", .quiet, .value .ticks "+5", .value .ticks "7"]
      ["-D", "v = 1", "-qt", "+5", "-t7"] :=
    .cons (.apart 0 .define "v = 1") (.cons (.apart 1 .ticks "+5") (.cons (.joined 0 .ticks "7" (by decide)) .nil))
  have hspelled := Spelled.ended ["-x.scn"] hitems
  have hnumber : (Number.readChars? ['1']).isSome := by decide +kernel
  obtain ⟨x, hx⟩ := Option.isSome_iff_exists.1 hnumber
  have hdefines : Defines "v = 1" ("v", x) :=
    ⟨['v', ' '], [' ', '1'], rfl, by decide, rfl, ne_of_beq_false rfl, hx⟩
  have hfive : Counts "+5" 5 := ⟨['5'], .inr rfl, by simp, List.forall_mem_singleton.2 rfl, rfl, by decide⟩
  have hseven : Counts "7" 7 := ⟨['7'], .inl rfl, by simp, List.forall_mem_singleton.2 rfl, rfl, by decide⟩
  have hmeans : Means [.value .define "v = 1", .quiet, .value .ticks "+5", .value .ticks "7", .file "-x.scn"]
      ⟨[("v", x)], 7, true, .file "-x.scn"⟩ :=
    ⟨.cons hdefines .nil, ⟨[5, 7], .cons hfive (.cons hseven .nil), rfl⟩, by simp, .file "-x.scn"⟩
  constructor
  · exact ⟨_, (parse_spelled.1 _ _).2 ⟨_, hspelled, hmeans⟩, rfl, rfl, rfl, rfl⟩
  · refine parse_spelled.2 ["x.scn"] ["-e"] 1 .ticks "5" (by decide) ?_ ?_
    · rintro ⟨settings, args, paths, -, hargs⟩
      simp [List.cons_eq_append_iff] at hargs
    · rintro ⟨settings, args, count, flag, -, hargs⟩
      have hrow : "x.scn" = row count [flag.letter] := by simpa using congrArg List.getLast? hargs
      have hhead := congrArg (·.toList.head?) hrow
      simp [toList_row] at hhead

/-- Behind `--` also a file can begin with a minus. There, and where a value is expected, two arguments are not the
same as one. -/
theorem parse_minusElsewhere :
    (parse ["--", "-ex"] = .ok ⟨[], 1, false, .file "-ex"⟩ ∧ (¬ ∃ settings, Items settings ["--", "-ex"]) ∧
      ¬ ∃ settings args paths, Items settings args ∧ (∀ path ∈ paths, IsPath path) ∧
        ["--", "-ex"] = args ++ "--" :: paths) ∧
    parse ["--", "-e", "x"] = .error (.manyFiles 2) ∧
    parse ["-e", "-t5"] = .ok ⟨[], 1, false, .inline "-t5"⟩ ∧ parse ["-e", "-t", "5"] = .error .twoSources := by
  have hfile : Spelled [.file "-ex"] ["--", "-ex"] := .ended ["-ex"] .nil
  have hfiles : Spelled [.file "-e", .file "x"] ["--", "-e", "x"] := .ended ["-e", "x"] .nil
  have hvalue : Items [.value .expression "-t5"] ["-e", "-t5"] := .cons (.apart 0 .expression "-t5") .nil
  have hvalueFile : Items [.value .expression "-t", .file "5"] ["-e", "-t", "5"] :=
    .cons (.apart 0 .expression "-t") (.cons (.path "5" (by decide)) .nil)
  refine ⟨⟨?_, fun ⟨_, hitems⟩ => not_items_end hitems, ?_⟩, ?_, ?_, ?_⟩
  · rw [parse, Options.read_spelled hfile]
    rfl
  · rintro ⟨settings, args, paths, hitems, hpaths, hargs⟩
    obtain ⟨rfl, hpath⟩ | ⟨more, rfl, -⟩ := List.cons_eq_append_iff.1 hargs
    · obtain rfl : paths = ["-ex"] := (List.cons.inj hpath).2
      exact absurd (hpaths "-ex" List.mem_cons_self) (by decide)
    · exact not_items_end hitems
  · rw [parse, Options.read_spelled hfiles]
    rfl
  · rw [parse, Options.read_spelled (.items hvalue)]
    rfl
  · rw [parse, Options.read_spelled (.items hvalueFile)]
    rfl

end Arguments

end ScenarioScript
