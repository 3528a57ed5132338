import Mathlib.Data.List.AList
import QtCesium.Bytes

/-! `readConfigFile`: the lines of `cesium.conf` and the entries they make. -/

namespace QtCesium

/-- `std::unordered_map<std::string, std::string>`. -/
abbrev Config := AList fun _ : Bytes => Bytes

/-- The value at `config.find(key)`. -/
def Config.find (config : Config) (key : Bytes) : Option Bytes := config.lookup key

def trimCopy (value : Bytes) : Bytes :=
  let first := value.findIdx fun ch => !isspace ch
  let last := value.length - value.reverse.findIdx fun ch => !isspace ch
  if first ≥ last then [] else (value.take last).drop first

/-- One of the two quote-stripping steps. -/
def stripQuotes (quote : UInt8) (value : Bytes) : Bytes :=
  if value ≠ [] ∧ value.head? = some quote ∧ value.getLast? = some quote then
    substr value 1 (sizeSub value.length 2)
  else value

/-- The body of the loop over the lines. -/
def readLine (values : Config) (line : Bytes) : Config :=
  let trimmed := trimCopy line
  if trimmed = [] ∨ trimmed.head? = some comment then values
  else
    match trimmed.findIdx? (· == equalsSign) with
    | none => values
    | some separator =>
        let key := trimCopy (substr trimmed 0 separator)
        let value := trimCopy (trimmed.drop (separator + 1))
        values.insert key (stripQuotes doubleQuote (stripQuotes singleQuote value))

/-- `std::getline`: the characters up to the newline, which is dropped. Nothing is read at the
end of the stream. -/
def getline (input : Bytes) : Option (Bytes × Bytes) :=
  if input = [] then none
  else some (input.takeWhile (· != newline), (input.dropWhile (· != newline)).drop 1)

/-- The loop over the lines; every turn reads at least one byte. -/
def readLines : Nat → Bytes → Config → Config
  | 0, _, values => values
  | fuel + 1, input, values =>
      match getline input with
      | none => values
      | some (line, rest) => readLines fuel rest (readLine values line)

/-- The file's content, or `none` when it cannot be opened. -/
def readConfigFile (file : Option Bytes) : Config :=
  match file with
  | none => ∅
  | some content => readLines content.length content ∅

/-! ### Lines -/

theorem getline_nil : getline [] = none := rfl

theorem getline_last {line : Bytes} (hline : newline ∉ line) (hne : line ≠ []) :
    getline line = some (line, []) := by
  have hall : ∀ ch ∈ line, (ch != newline) = true := fun ch hch => by
    simpa using fun heq : ch = newline => hline (heq ▸ hch)
  rw [getline, if_neg hne, List.takeWhile_eq_self_iff.mpr hall, List.dropWhile_eq_nil_iff.mpr hall,
    List.drop_nil]

theorem getline_line {line : Bytes} (hline : newline ∉ line) (rest : Bytes) :
    getline (line ++ newline :: rest) = some (line, rest) := by
  have hall : ∀ ch ∈ line, (ch != newline) = true := fun ch hch => by
    simpa using fun heq : ch = newline => hline (heq ▸ hch)
  rw [getline, if_neg (by simp), List.takeWhile_append_of_pos hall, List.dropWhile_append_of_pos hall]
  simp

theorem readLine_nil (values : Config) : readLine values [] = values := rfl

/-- With a turn for every byte the loop visits the pieces between the newlines in order. -/
theorem readLines_eq_foldl {fuel : Nat} {input : Bytes} (hfuel : input.length ≤ fuel)
    (values : Config) :
    readLines fuel input values = (input.splitOn newline).foldl readLine values := by
  induction fuel generalizing input values with
  | zero =>
      obtain rfl := List.length_eq_zero_iff.mp (Nat.le_zero.mp hfuel)
      rfl
  | succ fuel ih =>
      by_cases hnewline : newline ∈ input
      · obtain ⟨line, rest, rfl, hline⟩ := List.eq_append_cons_of_mem hnewline
        rw [readLines, getline_line hline, List.splitOn_append_cons_self_of_not_mem hline,
          List.foldl_cons]
        refine ih ?_ _
        simp only [List.length_append, List.length_cons] at hfuel
        omega
      · rw [List.splitOn_eq_singleton hnewline, List.foldl_cons, List.foldl_nil, readLines]
        rcases eq_or_ne input [] with rfl | hne
        · rw [getline_nil, readLine_nil]
        · rw [getline_last hnewline hne]
          cases fuel <;> rfl

/-- A file is read line by line. -/
theorem readConfigFile_eq_foldl (content : Bytes) :
    readConfigFile (some content) = (content.splitOn newline).foldl readLine ∅ :=
  readLines_eq_foldl (Nat.le_refl _) ∅

end QtCesium
