import Mathlib.Data.List.Basic
import ScenarioScript.Command.Arguments

/-!
# How arguments are spelled

The same settings can be spelled in many ways. The grammar says which lists of arguments are spellings of which
settings, and the reader goes along with it.
-/

namespace ScenarioScript

/-! ## The grammar -/

namespace Arguments

/-- What one letter or one file says. -/
inductive Setting where
  | quiet
  | value (flag : ValueFlag) (text : String)
  | file (path : String)
deriving DecidableEq

/-- A minus, the letter `q` as often as one likes, and other letters. -/
def row (count : Nat) (letters : List Char) : String :=
  String.ofList ('-' :: (List.replicate count 'q' ++ letters))

/-- A minus alone is a file too. -/
def IsPath (arg : String) : Prop := arg = "-" ∨ arg.toList.head? ≠ some '-'

instance : DecidablePred IsPath := fun _ => inferInstanceAs (Decidable (_ ∨ _))

/-- One argument, or two if all of the second is the value of the first. -/
inductive Item : List Setting → List String → Prop
  | letters (count : Nat) : 0 < count → Item (List.replicate count .quiet) [row count []]
  | joined (count : Nat) (flag : ValueFlag) (text : String) : text ≠ "" →
      Item (List.replicate count .quiet ++ [.value flag text]) [row count (flag.letter :: text.toList)]
  | apart (count : Nat) (flag : ValueFlag) (text : String) :
      Item (List.replicate count .quiet ++ [.value flag text]) [row count [flag.letter], text]
  | path (arg : String) : IsPath arg → Item [.file arg] [arg]

/-- Items one after the other. -/
inductive Items : List Setting → List String → Prop
  | nil : Items [] []
  | cons {settings others : List Setting} {args rest : List String} :
      Item settings args → Items others rest → Items (settings ++ others) (args ++ rest)

/-- Behind `--` each argument is a file, also one that begins with a minus. -/
inductive Spelled : List Setting → List String → Prop
  | items {settings : List Setting} {args : List String} : Items settings args → Spelled settings args
  | ended {settings : List Setting} {args : List String} (paths : List String) : Items settings args →
      Spelled (settings ++ paths.map .file) (args ++ "--" :: paths)

end Arguments

/-! ## Letters -/

namespace ValueFlag

variable {flag : ValueFlag} {c : Char}

theorem letter_ne_quiet : flag.letter ≠ 'q' := by cases flag <;> decide

theorem letter_ne_minus : flag.letter ≠ '-' := by cases flag <;> decide

theorem ofLetter?_eq_some_iff : ofLetter? c = some flag ↔ c = flag.letter := by
  constructor
  · intro h
    simpa [eq_comm] using List.find?_some h
  · rintro rfl
    cases flag <;> rfl

end ValueFlag

namespace Arguments

section
variable {flag : ValueFlag} {count : Nat} {letters : List Char} {arg : String}

theorem toList_row : (row count letters).toList = '-' :: (List.replicate count 'q' ++ letters) :=
  String.toList_ofList

theorem row_ne_end (h : letters ≠ ['-']) : row count letters ≠ "--" := by
  intro hrow
  have htext : List.replicate count 'q' ++ letters = ['-'] := by
    simpa [toList_row] using congrArg String.toList hrow
  cases count with
  | zero => exact h (by simpa using htext)
  | succ count => simp [List.replicate_succ] at htext

theorem row_flag_ne_end : row count (flag.letter :: letters) ≠ "--" :=
  row_ne_end (by simp [ValueFlag.letter_ne_minus])

theorem IsPath.ne_end (h : IsPath arg) : arg ≠ "--" := by
  rintro rfl
  revert h
  decide

theorem exists_replicate (text : List Char) :
    ∃ count letters, text = List.replicate count 'q' ++ letters ∧ letters.head? ≠ some 'q' := by
  induction text with
  | nil => exact ⟨0, [], rfl, by simp⟩
  | cons c text ih =>
    by_cases hc : c = 'q'
    · obtain ⟨count, letters, rfl, hhead⟩ := ih
      exact ⟨count + 1, letters, by rw [hc]; rfl, hhead⟩
    · exact ⟨0, c :: text, rfl, by simpa using hc⟩

theorem exists_row (h : ¬ IsPath arg) :
    ∃ count letters, arg = row count letters ∧ letters.head? ≠ some 'q' ∧ (0 < count ∨ letters ≠ []) := by
  obtain ⟨hminus, hhead⟩ : arg ≠ "-" ∧ arg.toList.head? = some '-' := by simpa [IsPath] using h
  obtain ⟨text, htext⟩ := List.head?_eq_some_iff.1 hhead
  obtain ⟨count, letters, rfl, hletters⟩ := exists_replicate text
  refine ⟨count, letters, ?_, hletters, ?_⟩
  · rw [← String.toList_inj, toList_row, htext]
  · by_contra hnone
    obtain ⟨rfl, rfl⟩ : count = 0 ∧ letters = [] := by simpa using hnone
    exact hminus (String.toList_inj.1 htext)

end

end Arguments

/-! ## One setting after the other -/

theorem except_bind_eq_ok_iff {ε α β : Type} {x : Except ε α} {f : α → Except ε β} {b : β} :
    x >>= f = .ok b ↔ ∃ a, x = .ok a ∧ f a = .ok b := by
  cases x <;> simp [bind, Except.bind]

namespace Options

open Arguments

section
variable {options : Options} {count : Nat} {letters : List Char} {flag : ValueFlag} {rest : List String}

def add (options : Options) : Setting → Except UsageError Options
  | .quiet => .ok { options with isQuiet := true }
  | .value flag text => options.set text flag
  | .file path => .ok (options.addFiles [path])

/-- The options behind a number of letters `q`. -/
def hush (options : Options) (count : Nat) : Options :=
  { options with isQuiet := options.isQuiet || decide (0 < count) }

theorem foldlM_quiet : (List.replicate count Setting.quiet).foldlM add options = .ok (options.hush count) := by
  induction count generalizing options with
  | zero => exact congrArg Except.ok (by simp [hush])
  | succ count ih =>
    rw [List.replicate_succ, List.foldlM_cons]
    exact ih.trans (by simp [hush])

theorem foldlM_quiet_value (text : String) :
    (List.replicate count Setting.quiet ++ [Setting.value flag text]).foldlM add options =
      (options.hush count).set text flag := by
  rw [List.foldlM_append, foldlM_quiet]
  exact bind_pure ((options.hush count).set text flag)

theorem readLetters_quiet :
    options.readLetters (List.replicate count 'q' ++ letters) = (options.hush count).readLetters letters := by
  induction count generalizing options with
  | zero => simp [hush]
  | succ count ih =>
    rw [List.replicate_succ, List.cons_append, readLetters, if_pos rfl, ih]
    simp [hush]

theorem readLetters_flag : options.readLetters (flag.letter :: letters) =
    if letters = [] then .ok (options, some flag)
    else do return (← options.set (String.ofList letters) flag, none) := by
  rw [readLetters, if_neg ValueFlag.letter_ne_quiet, ValueFlag.ofLetter?_eq_some_iff.2 rfl]

theorem read_row (hend : row count letters ≠ "--") (hne : 0 < count ∨ letters ≠ []) :
    options.read (row count letters :: rest) = (do
      let (options, pending) ← (options.hush count).readLetters letters
      match pending with
      | none => options.read rest
      | some flag =>
        match rest with
        | [] => throw (.missingValue flag)
        | value :: rest => (← options.set value flag).read rest) := by
  obtain ⟨c, more, hmore⟩ : ∃ c more, List.replicate count 'q' ++ letters = c :: more := by
    refine List.exists_cons_of_ne_nil ?_
    simpa [Nat.pos_iff_ne_zero, or_iff_not_imp_left] using hne
  rw [read, if_neg hend, ← readLetters_quiet, toList_row, hmore]
  rfl

theorem read_path {arg : String} (h : IsPath arg) :
    options.read (arg :: rest) = (options.addFiles [arg]).read rest := by
  rw [read, if_neg h.ne_end]
  split
  · next c letters htext =>
    rcases h with rfl | hhead
    · simp at htext
    · simp [htext] at hhead
  · rfl

theorem read_item {settings : List Setting} {args : List String} (h : Item settings args) :
    options.read (args ++ rest) = settings.foldlM add options >>= (·.read rest) := by
  cases h with
  | letters count hcount =>
    rw [List.singleton_append, read_row (row_ne_end (by simp)) (.inl hcount), foldlM_quiet]
    rfl
  | joined count flag text htext =>
    have hletters : text.toList ≠ [] := by simpa using htext
    rw [List.singleton_append, read_row row_flag_ne_end (.inr (by simp)), readLetters_flag, if_neg hletters,
      String.ofList_toList, foldlM_quiet_value]
    simp
  | apart count flag text =>
    rw [List.cons_append, read_row row_flag_ne_end (.inr (by simp)), readLetters_flag, if_pos rfl,
      foldlM_quiet_value]
    rfl
  | path arg hpath => exact read_path hpath

theorem read_items {settings : List Setting} {args : List String} (h : Items settings args) :
    options.read (args ++ rest) = settings.foldlM add options >>= (·.read rest) := by
  induction h generalizing options with
  | nil => rfl
  | cons hitem _ ih =>
    rw [List.append_assoc, read_item hitem, List.foldlM_append, bind_assoc]
    congr 1
    funext next
    exact ih

end

end Options

/-! ## Where the items end -/

namespace Arguments

/-- What stands where no further item begins. -/
inductive Stops : List String → Prop
  | nil : Stops []
  | ended (paths : List String) : Stops ("--" :: paths)
  | pending (count : Nat) (flag : ValueFlag) : Stops [row count [flag.letter]]
  | unknown (count : Nat) (letter : Char) (letters : List Char) (rest : List String) : letter ≠ 'q' →
      ValueFlag.ofLetter? letter = none → row count (letter :: letters) ≠ "--" →
      Stops (row count (letter :: letters) :: rest)

theorem exists_item_or_stops (argv : List String) :
    (∃ settings args rest, Item settings args ∧ args ≠ [] ∧ argv = args ++ rest) ∨ Stops argv := by
  cases argv with
  | nil => exact .inr .nil
  | cons arg rest =>
    by_cases hend : arg = "--"
    · exact .inr (hend ▸ .ended rest)
    by_cases hpath : IsPath arg
    · exact .inl ⟨_, [arg], rest, .path arg hpath, by simp, rfl⟩
    obtain ⟨count, letters, rfl, hhead, hne⟩ := exists_row hpath
    cases letters with
    | nil => exact .inl ⟨_, _, rest, .letters count (by simpa using hne), by simp, rfl⟩
    | cons letter letters =>
      cases hflag : ValueFlag.ofLetter? letter with
      | none => exact .inr (.unknown count letter letters rest (by simpa using hhead) hflag hend)
      | some flag =>
        obtain rfl := ValueFlag.ofLetter?_eq_some_iff.1 hflag
        by_cases hletters : letters = []
        · subst hletters
          cases rest with
          | nil => exact .inr (.pending count flag)
          | cons text rest => exact .inl ⟨_, _, rest, .apart count flag text, by simp, rfl⟩
        · have hitem := Item.joined count flag (String.ofList letters) (by simpa using hletters)
          rw [String.toList_ofList] at hitem
          exact .inl ⟨_, _, rest, hitem, by simp, rfl⟩

theorem exists_items (argv : List String) :
    ∃ settings args rest, Items settings args ∧ Stops rest ∧ argv = args ++ rest := by
  -- An item takes one argument or two, so the induction is on their number.
  induction hlength : argv.length using Nat.strongRecOn generalizing argv with
  | _ length ih =>
    subst hlength
    obtain ⟨settings, args, rest, hitem, hne, rfl⟩ | hstops := exists_item_or_stops argv
    · have hshorter : rest.length < (args ++ rest).length := by
        have hpos := List.length_pos_of_ne_nil hne
        simp only [List.length_append]
        omega
      obtain ⟨others, more, stop, hitems, hstops, rfl⟩ := ih rest.length hshorter rest rfl
      exact ⟨_, args ++ more, stop, .cons hitem hitems, hstops, by simp⟩
    · exact ⟨[], [], argv, .nil, hstops, rfl⟩

theorem Item.ne_end {settings : List Setting} {arg : String} {rest : List String} (h : Item settings (arg :: rest)) :
    arg ≠ "--" := by
  cases h with
  | letters count _ => exact row_ne_end (by simp)
  | joined count flag text _ => exact row_flag_ne_end
  | apart count flag text => exact row_flag_ne_end
  | path arg hpath => exact hpath.ne_end

theorem not_items_end {settings : List Setting} {rest : List String} : ¬ Items settings ("--" :: rest) := by
  intro h
  generalize hargs : "--" :: rest = args at h
  cases h with
  | nil => simp at hargs
  | @cons settings _ args more hitem _ =>
    cases args with
    | nil => cases hitem
    | cons arg args => exact hitem.ne_end (List.cons.inj hargs).1.symm

end Arguments

namespace Options

open Arguments

section
variable {options : Options}

theorem read_pending (count : Nat) (flag : ValueFlag) :
    options.read [row count [flag.letter]] = .error (.missingValue flag) := by
  rw [read_row row_flag_ne_end (.inr (by simp)), readLetters_flag, if_pos rfl]
  rfl

theorem read_unknown {letter : Char} (count : Nat) (letters : List Char) (rest : List String) (hquiet : letter ≠ 'q')
    (hflag : ValueFlag.ofLetter? letter = none) (hend : row count (letter :: letters) ≠ "--") :
    options.read (row count (letter :: letters) :: rest) = .error (.unknownFlag letter) := by
  rw [read_row hend (.inr (by simp)), readLetters, if_neg hquiet, hflag]
  rfl

theorem foldlM_paths (paths : List String) :
    (paths.map Setting.file).foldlM add options = .ok (options.addFiles paths) := by
  induction paths generalizing options with
  | nil => exact congrArg Except.ok (by simp [addFiles])
  | cons path paths ih =>
    rw [List.map_cons, List.foldlM_cons]
    exact ih.trans (by simp [addFiles])

theorem read_spelled {settings : List Setting} {argv : List String} (h : Spelled settings argv) :
    options.read argv = settings.foldlM add options := by
  cases h with
  | items hitems =>
    rw [← List.append_nil argv, read_items hitems]
    exact bind_pure (settings.foldlM add options)
  | ended paths hitems =>
    rw [read_items hitems, List.foldlM_append]
    congr 1
    funext next
    rw [read, if_pos rfl, foldlM_paths]

theorem exists_spelled_of_read {argv : List String} {final : Options} (h : options.read argv = .ok final) :
    ∃ settings, Spelled settings argv := by
  obtain ⟨settings, args, rest, hitems, hstops, rfl⟩ := exists_items argv
  rw [read_items hitems] at h
  obtain ⟨next, -, hnext⟩ := except_bind_eq_ok_iff.1 h
  cases hstops with
  | nil => exact ⟨settings, by simpa using Spelled.items hitems⟩
  | ended paths => exact ⟨_, .ended paths hitems⟩
  | pending count flag => simp [read_pending] at hnext
  | unknown count letter letters rest hquiet hflag hend =>
    simp [read_unknown count letters rest hquiet hflag hend] at hnext

end

end Options

/-! ## A value behind its letter and as the next argument -/

namespace Arguments

/-- The reader has come to `--`. -/
def IsEnded (argv : List String) : Prop :=
  ∃ settings args paths, Items settings args ∧ argv = args ++ "--" :: paths

/-- The next argument is the value of the last letter. -/
def IsPending (argv : List String) : Prop :=
  ∃ settings args count flag, Items settings args ∧ argv = args ++ [row count [ValueFlag.letter flag]]

end Arguments

namespace Options

open Arguments

theorem read_joined_eq_apart {options : Options} {front : List String} {count : Nat} {flag : ValueFlag} {text : String}
    (rest : List String) (htext : text ≠ "") (hended : ¬ IsEnded front) (hpending : ¬ IsPending front) :
    options.read (front ++ row count (flag.letter :: text.toList) :: rest) =
      options.read (front ++ row count [flag.letter] :: text :: rest) := by
  obtain ⟨settings, args, stop, hitems, hstops, rfl⟩ := exists_items front
  simp only [List.append_assoc, read_items hitems]
  congr 1
  funext next
  cases hstops with
  | nil =>
    have hjoined := Item.joined count flag text htext
    have hapart := Item.apart count flag text
    exact (read_item hjoined).trans (read_item hapart).symm
  | ended paths => exact absurd ⟨settings, args, paths, hitems, rfl⟩ hended
  | pending count flag => exact absurd ⟨settings, args, count, flag, hitems, rfl⟩ hpending
  | unknown count letter letters more hquiet hflag hend =>
    -- The reader has failed before it comes to either of the two.
    rw [List.cons_append, List.cons_append, read_unknown count letters _ hquiet hflag hend,
      read_unknown count letters _ hquiet hflag hend]

end Options

end ScenarioScript
