import QtCesium.ConfigFile
import QtCesium.LibraryText

/-! The line grammar of `cesium.conf`, stated on lines and their parts, and the values for which
`readConfigFile` departs from it. A value goes through two quote-stripping steps: the second sees
what the first left, and a single quote counts as an opening and a closing one. -/

namespace QtCesium

open Text

/-! ### The grammar -/

/-- The line gives `key` the trimmed text `value`. -/
def Assigns (line key value : Bytes) : Prop :=
  ∃ trimmed before after, Trims isspace line trimmed ∧ trimmed ≠ [] ∧
    trimmed.head? ≠ some comment ∧ SplitsAt equalsSign trimmed before after ∧
    Trims isspace before key ∧ Trims isspace after value

/-- The last line that gives `key` a text gives it `value`. -/
def LastAssigns (content key value : Bytes) : Prop :=
  ∃ earlier line later, content.splitOn newline = earlier ++ line :: later ∧
    Assigns line key value ∧ ∀ other ∈ later, ∀ value', ¬Assigns other key value'

def IsQuote (quote : UInt8) : Prop := quote = singleQuote ∨ quote = doubleQuote

def Quoted (value inner : Bytes) : Prop :=
  ∃ quote, IsQuote quote ∧ value = quote :: (inner ++ [quote])

/-- One pair of equal quotes is removed, any other text is kept. -/
def Unquotes (value result : Bytes) : Prop :=
  Quoted value result ∨ (∀ inner, ¬Quoted value inner) ∧ result = value

/-- A line `key=value` whose value stands in quotes, with blanks around the key and the value. -/
structure QuotedLine (line key inner : Bytes) : Prop where
  shape : ∃ quote blank₁ blank₂ blank₃ blank₄, IsQuote quote ∧
    line = blank₁ ++ key ++ blank₂ ++
      equalsSign :: (blank₃ ++ quote :: (inner ++ [quote]) ++ blank₄) ∧
    (∀ ch ∈ blank₁, isspace ch = true) ∧ (∀ ch ∈ blank₂, isspace ch = true) ∧
    (∀ ch ∈ blank₃, isspace ch = true) ∧ ∀ ch ∈ blank₄, isspace ch = true
  separator : equalsSign ∉ key
  comment : key.head? ≠ some comment
  head : ∀ ch ∈ key.head?, isspace ch = false
  last : ∀ ch ∈ key.getLast?, isspace ch = false

/-- What the program makes of a file is what the grammar says. -/
structure ReadsByGrammar (content : Bytes) : Prop where
  keys : ∀ key, ((readConfigFile (some content)).find key).isSome = true ↔
    ∃ line ∈ content.splitOn newline, ∃ value, Assigns line key value
  values : ∀ key value, LastAssigns content key value →
    ∃ result, Unquotes value result ∧ (readConfigFile (some content)).find key = some result
  quoted : ∀ earlier line later key inner, content.splitOn newline = earlier ++ line :: later →
    QuotedLine line key inner → (∀ other ∈ later, ∀ value, ¬Assigns other key value) →
    (readConfigFile (some content)).find key = some inner

/-- The texts the two stripping steps get wrong: a lone quote, and a text in single quotes that
itself begins and ends with a double quote. -/
def Misquoted (value : Bytes) : Prop :=
  value = [singleQuote] ∨ value = [doubleQuote] ∨
    ∃ inner, inner ≠ [] ∧ inner.head? = some doubleQuote ∧ inner.getLast? = some doubleQuote ∧
      value = singleQuote :: (inner ++ [singleQuote])

/-! ### Lines -/

theorem trimCopy_eq_trim (value : Bytes) : trimCopy value = trim isspace value :=
  take_drop_findIdx value

theorem trims_iff_trimCopy {value core : Bytes} : Trims isspace value core ↔ core = trimCopy value := by
  rw [trims_iff, trimCopy_eq_trim]

theorem Assigns.unique {line key value value' : Bytes} (h : Assigns line key value)
    (h' : Assigns line key value') : value = value' := by
  obtain ⟨trimmed, before, after, htrim, -, -, hsplit, -, hvalue⟩ := h
  obtain ⟨trimmed', before', after', htrim', -, -, hsplit', -, hvalue'⟩ := h'
  obtain rfl := htrim.eq htrim'
  obtain ⟨-, rfl⟩ := hsplit.eq hsplit'
  exact hvalue.eq hvalue'

/-- Both stripping steps, in their order. -/
def stripBoth (value : Bytes) : Bytes := stripQuotes doubleQuote (stripQuotes singleQuote value)

theorem readLine_of_assigns {line key value : Bytes} (h : Assigns line key value) (values : Config) :
    readLine values line = values.insert key (stripBoth value) := by
  obtain ⟨trimmed, before, after, htrim, hne, hcomment, hsplit, hkey, hvalue⟩ := h
  obtain rfl := trims_iff_trimCopy.mp htrim
  rw [readLine, if_neg (not_or.mpr ⟨hne, hcomment⟩)]
  cases hfound : (trimCopy line).findIdx? (· == equalsSign) with
  | none =>
      have hmem : equalsSign ∈ trimCopy line := by
        rw [hsplit.1]
        simp
      exact absurd hmem (findIdx?_eq_none_iff.mp hfound)
  | some separator =>
      obtain ⟨rfl, rfl⟩ := hsplit.eq (SplitsAt.of_findIdx? hfound)
      rw [trims_iff_trimCopy.mp hkey, trims_iff_trimCopy.mp hvalue]
      rfl

theorem readLine_of_not_assigns {line : Bytes} (h : ∀ key value, ¬Assigns line key value)
    (values : Config) : readLine values line = values := by
  rw [readLine]
  split_ifs with hskip
  · rfl
  · cases hfound : (trimCopy line).findIdx? (· == equalsSign) with
    | none => rfl
    | some separator =>
        obtain ⟨hne, hcomment⟩ := not_or.mp hskip
        exact absurd ⟨trimCopy line, _, _, trims_iff_trimCopy.mpr rfl, hne, hcomment,
          SplitsAt.of_findIdx? hfound, trims_iff_trimCopy.mpr rfl, trims_iff_trimCopy.mpr rfl⟩ (h _ _)

/-- A line that does not assign the key leaves its value alone. -/
theorem find_readLine_of_not_assigns {line key : Bytes} (h : ∀ value, ¬Assigns line key value)
    (values : Config) : (readLine values line).find key = values.find key := by
  by_cases hany : ∃ key' value, Assigns line key' value
  · obtain ⟨key', value, hassigns⟩ := hany
    have hne : key ≠ key' := fun heq => h value (heq ▸ hassigns)
    rw [readLine_of_assigns hassigns, Config.find, AList.lookup_insert_ne hne]
    rfl
  · rw [readLine_of_not_assigns fun key' value hassigns => hany ⟨key', value, hassigns⟩]

theorem find_foldl_of_not_assigns {key : Bytes} {lines : List Bytes}
    (h : ∀ line ∈ lines, ∀ value, ¬Assigns line key value) (values : Config) :
    (lines.foldl readLine values).find key = values.find key := by
  induction lines generalizing values with
  | nil => rfl
  | cons line lines ih =>
      rw [List.foldl_cons, ih fun other hother => h other (List.mem_cons_of_mem _ hother),
        find_readLine_of_not_assigns (h line List.mem_cons_self)]

/-- The last assignment wins. -/
theorem find_of_lastAssigns {content key value : Bytes} (h : LastAssigns content key value) :
    (readConfigFile (some content)).find key = some (stripBoth value) := by
  obtain ⟨earlier, line, later, hlines, hassigns, hlater⟩ := h
  rw [readConfigFile_eq_foldl, hlines, List.foldl_append, List.foldl_cons,
    find_foldl_of_not_assigns hlater, readLine_of_assigns hassigns, Config.find, AList.lookup_insert]

theorem exists_lastAssigns {content key : Bytes} {line value : Bytes}
    (hline : line ∈ content.splitOn newline) (h : Assigns line key value) :
    ∃ value', LastAssigns content key value' := by
  unfold LastAssigns
  generalize content.splitOn newline = lines at hline ⊢
  induction lines using List.reverseRecOn with
  | nil => cases hline
  | append_singleton lines last ih =>
      by_cases hlast : ∃ value', Assigns last key value'
      · obtain ⟨value', hlast⟩ := hlast
        exact ⟨value', lines, last, [], rfl, hlast, fun other hother => by cases hother⟩
      · rcases List.mem_append.mp hline with hline | hline
        · obtain ⟨value', earlier, line', later, rfl, hassigns, hlater⟩ := ih hline
          refine ⟨value', earlier, line', later ++ [last], by simp, hassigns, ?_⟩
          intro other hother
          rcases List.mem_append.mp hother with hother | hother
          · exact hlater other hother
          · obtain rfl := List.mem_singleton.mp hother
            exact fun value' hassigns => hlast ⟨value', hassigns⟩
        · obtain rfl := List.mem_singleton.mp hline
          exact absurd ⟨value, h⟩ hlast

theorem find_of_not_assigns {content key : Bytes}
    (h : ∀ line ∈ content.splitOn newline, ∀ value, ¬Assigns line key value) :
    (readConfigFile (some content)).find key = none := by
  rw [readConfigFile_eq_foldl, find_foldl_of_not_assigns h]
  rfl

theorem isSome_find_iff (content key : Bytes) :
    ((readConfigFile (some content)).find key).isSome = true ↔
      ∃ line ∈ content.splitOn newline, ∃ value, Assigns line key value := by
  constructor
  · intro hsome
    by_contra hnone
    rw [find_of_not_assigns fun line hline value h => hnone ⟨line, hline, value, h⟩] at hsome
    cases hsome
  · rintro ⟨line, hline, value, h⟩
    obtain ⟨value', hlast⟩ := exists_lastAssigns hline h
    rw [find_of_lastAssigns hlast]
    rfl

/-- Any blanks may stand around the line, the key and the value. -/
theorem assigns_of_trims {before after key value : Bytes} (hkey : Trims isspace before key)
    (hvalue : Trims isspace after value) (hseparator : equalsSign ∉ before)
    (hcomment : key.head? ≠ some comment) : Assigns (before ++ equalsSign :: after) key value := by
  obtain ⟨blank, front, rfl, hblank, hfront, hhead⟩ := hkey.front
  obtain ⟨back, blank', rfl, hblank', hback, hlast⟩ := hvalue.back
  refine ⟨front ++ equalsSign :: back, front, back, ⟨⟨blank, blank', by simp, hblank, hblank'⟩, ?_, ?_⟩,
    by simp, ?_, ⟨rfl, fun h => hseparator (by simp [h])⟩, hfront, hback⟩
  · intro ch hch
    cases front with
    | nil =>
        cases hch
        decide
    | cons first rest => exact hkey.head ch (hhead ▸ hch)
  · intro ch hch
    rcases List.eq_nil_or_concat back with rfl | ⟨rest, last, rfl⟩
    · rw [List.getLast?_concat] at hch
      cases hch
      decide
    · rw [List.concat_eq_append] at hlast hch
      rw [← List.cons_append, ← List.append_assoc, List.getLast?_concat] at hch
      rw [List.getLast?_concat] at hlast
      exact hvalue.last ch (hlast ▸ hch)
  · cases front with
    | nil => exact fun h => absurd (Option.some.inj h) (by decide)
    | cons first rest => exact fun h => hcomment (hhead ▸ h)

theorem QuotedLine.assigns {line key inner : Bytes} (h : QuotedLine line key inner) :
    ∃ value, Quoted value inner ∧ Assigns line key value := by
  obtain ⟨⟨quote, blank₁, blank₂, blank₃, blank₄, hquote, rfl, h₁, h₂, h₃, h₄⟩, hseparator, hcomment,
    hhead, hlast⟩ := h
  have hspace : ∀ {blank : Bytes}, (∀ ch ∈ blank, isspace ch = true) → equalsSign ∉ blank :=
    fun hblank hmem => absurd (hblank _ hmem) (by decide)
  have hnot : isspace quote = false := by rcases hquote with rfl | rfl <;> rfl
  refine ⟨quote :: (inner ++ [quote]), ⟨quote, hquote, rfl⟩, assigns_of_trims ?_ ?_ ?_ hcomment⟩
  · exact ⟨⟨blank₁, blank₂, rfl, h₁, h₂⟩, hhead, hlast⟩
  · refine ⟨⟨blank₃, blank₄, rfl, h₃, h₄⟩, fun ch hch => ?_, fun ch hch => ?_⟩
    · cases hch
      exact hnot
    · rw [← List.cons_append, List.getLast?_concat] at hch
      cases hch
      exact hnot
  · simp [hspace h₁, hspace h₂, hseparator]

/-! ### Quotes -/

theorem stripQuotes_quoted (quote : UInt8) (inner : Bytes) :
    stripQuotes quote (quote :: (inner ++ [quote])) = inner := by
  have hcond : quote :: (inner ++ [quote]) ≠ [] ∧ (quote :: (inner ++ [quote])).head? = some quote ∧
      (quote :: (inner ++ [quote])).getLast? = some quote :=
    ⟨by simp, rfl, by rw [← List.cons_append, List.getLast?_concat]⟩
  have hlength : sizeSub (quote :: (inner ++ [quote])).length 2 = inner.length := by
    simp [sizeSub]
  rw [stripQuotes, if_pos hcond, hlength, substr, List.drop_one, List.tail_cons, List.take_left]

/-- `size() - 2` wraps around, and the rest of a text that is one quote is empty. -/
theorem stripQuotes_other {quote : UInt8} {value : Bytes} (hlone : value ≠ [quote])
    (hquoted : ∀ inner, value ≠ quote :: (inner ++ [quote])) : stripQuotes quote value = value := by
  rw [stripQuotes, if_neg]
  rintro ⟨-, hhead, hlast⟩
  obtain ⟨rest, rfl⟩ := List.head?_eq_some_iff.mp hhead
  rcases List.eq_nil_or_concat rest with rfl | ⟨inner, last, rfl⟩
  · exact hlone rfl
  · rw [List.concat_eq_append, ← List.cons_append, List.getLast?_concat] at hlast
    obtain rfl := Option.some.inj hlast
    exact hquoted inner (by simp)

theorem quoted_inj {left right : UInt8} {inner inner' : Bytes}
    (h : left :: (inner ++ [left]) = right :: (inner' ++ [right])) : inner = inner' := by
  obtain ⟨rfl, htail⟩ := List.cons.inj h
  exact List.append_cancel_right htail

theorem Unquotes.unique {value result result' : Bytes} (h : Unquotes value result)
    (h' : Unquotes value result') : result = result' := by
  rcases h with hquoted | ⟨hnot, rfl⟩ <;> rcases h' with hquoted' | ⟨hnot', rfl⟩
  · obtain ⟨left, -, rfl⟩ := hquoted
    obtain ⟨right, -, heq⟩ := hquoted'
    exact quoted_inj heq
  · exact absurd hquoted (hnot' result)
  · exact absurd hquoted' (hnot result')
  · rfl

/-- Stripping double quotes from what stood in single quotes changes it exactly when it begins and
ends with a double quote. -/
theorem stripQuotes_eq_self_iff {quote : UInt8} {value : Bytes} :
    stripQuotes quote value = value ↔
      ¬(value ≠ [] ∧ value.head? = some quote ∧ value.getLast? = some quote) := by
  constructor
  · rintro h ⟨hne, hhead, hlast⟩
    have hlength := congrArg List.length h
    rw [stripQuotes, if_pos ⟨hne, hhead, hlast⟩, substr, List.length_take, List.length_drop] at hlength
    have hpos := List.length_pos_of_ne_nil hne
    omega
  · intro h
    rw [stripQuotes, if_neg h]

theorem unquotes_stripBoth_iff (value : Bytes) : Unquotes value (stripBoth value) ↔ ¬Misquoted value := by
  have hneq : singleQuote ≠ doubleQuote := by decide
  by_cases hlone : value = [singleQuote] ∨ value = [doubleQuote]
  · -- A lone quote is stripped to nothing, and the grammar keeps it.
    have hstrip : stripBoth value = [] := by rcases hlone with rfl | rfl <;> rfl
    have hmis : Misquoted value := hlone.elim Or.inl fun h => Or.inr (Or.inl h)
    refine ⟨fun h => ?_, fun h => absurd hmis h⟩
    rw [hstrip] at h
    rcases h with ⟨quote, -, rfl⟩ | ⟨-, rfl⟩
    · rcases hlone with h | h <;> cases h
    · rcases hlone with h | h <;> cases h
  · obtain ⟨hsingle, hdouble⟩ := not_or.mp hlone
    by_cases hquoted : ∃ inner, value = singleQuote :: (inner ++ [singleQuote])
    · obtain ⟨inner, rfl⟩ := hquoted
      have hfirst : stripBoth (singleQuote :: (inner ++ [singleQuote])) = stripQuotes doubleQuote inner := by
        rw [stripBoth, stripQuotes_quoted]
      have hspec : Unquotes (singleQuote :: (inner ++ [singleQuote])) inner :=
        Or.inl ⟨singleQuote, Or.inl rfl, rfl⟩
      have hself : Unquotes (singleQuote :: (inner ++ [singleQuote]))
          (stripBoth (singleQuote :: (inner ++ [singleQuote]))) ↔ stripQuotes doubleQuote inner = inner := by
        rw [hfirst]
        exact ⟨fun h => h.unique hspec, fun h => h.symm ▸ hspec⟩
      rw [hself, stripQuotes_eq_self_iff, not_iff_not]
      constructor
      · rintro ⟨hne, hhead, hlast⟩
        exact Or.inr (Or.inr ⟨inner, hne, hhead, hlast, rfl⟩)
      · rintro (h | h | ⟨inner', hne, hhead, hlast, heq⟩)
        · exact absurd h hsingle
        · exact absurd h hdouble
        · obtain rfl := quoted_inj heq
          exact ⟨hne, hhead, hlast⟩
    · have hkept : stripQuotes singleQuote value = value :=
        stripQuotes_other hsingle fun inner h => hquoted ⟨inner, h⟩
      have hnot : ¬Misquoted value := by
        rintro (h | h | ⟨inner, -, -, -, h⟩)
        · exact hsingle h
        · exact hdouble h
        · exact hquoted ⟨inner, h⟩
      refine ⟨fun _ => hnot, fun _ => ?_⟩
      rw [stripBoth, hkept]
      by_cases hin : ∃ inner, value = doubleQuote :: (inner ++ [doubleQuote])
      · obtain ⟨inner, rfl⟩ := hin
        rw [stripQuotes_quoted]
        exact Or.inl ⟨doubleQuote, Or.inr rfl, rfl⟩
      · rw [stripQuotes_other hdouble fun inner h => hin ⟨inner, h⟩]
        refine Or.inr ⟨?_, rfl⟩
        rintro inner ⟨quote, rfl | rfl, h⟩
        · exact hquoted ⟨inner, h⟩
        · exact hin ⟨inner, h⟩

/-! ### The whole file -/

/-- The file is read by the grammar exactly when no key's last text is one of the misquoted ones. -/
theorem readsByGrammar_iff (content : Bytes) :
    ReadsByGrammar content ↔ ∀ key value, LastAssigns content key value → ¬Misquoted value := by
  constructor
  · intro h key value hlast
    obtain ⟨result, hresult, hfind⟩ := h.values key value hlast
    rw [find_of_lastAssigns hlast] at hfind
    rw [← unquotes_stripBoth_iff, Option.some.inj hfind]
    exact hresult
  · intro h
    have hvalues : ∀ key value, LastAssigns content key value →
        ∃ result, Unquotes value result ∧ (readConfigFile (some content)).find key = some result :=
      fun key value hlast => ⟨stripBoth value, (unquotes_stripBoth_iff value).mpr (h key value hlast),
        find_of_lastAssigns hlast⟩
    refine ⟨isSome_find_iff content, hvalues, ?_⟩
    intro earlier line later key inner hlines hline hlater
    obtain ⟨value, hquoted, hassigns⟩ := hline.assigns
    obtain ⟨result, hresult, hfind⟩ :=
      hvalues key value ⟨earlier, line, later, hlines, hassigns, hlater⟩
    rw [hfind, hresult.unique (Or.inl hquoted)]

/-- `ion_access_token='"'` on a line of its own: the token is one double quote and reads back empty. -/
theorem not_readsByGrammar_doubleQuote : ¬ReadsByGrammar (text "ion_access_token='\"'") := by
  intro h
  have hread : (readConfigFile (some (text "ion_access_token='\"'"))).find (text "ion_access_token") =
      some [] := by decide
  have hquotedLine : QuotedLine (text "ion_access_token='\"'") (text "ion_access_token") [doubleQuote] := {
    shape := ⟨singleQuote, [], [], [], [], Or.inl rfl, by decide, by simp, by simp, by simp, by simp⟩
    separator := by decide
    comment := by decide
    head := by
      intro ch hch
      obtain rfl : 0x69 = ch := Option.some.inj hch
      rfl
    last := by
      intro ch hch
      obtain rfl : 0x6e = ch := Option.some.inj hch
      rfl }
  have hline := h.quoted [] _ [] _ _ (by decide) hquotedLine (by simp)
  rw [hread] at hline
  cases hline

end QtCesium
