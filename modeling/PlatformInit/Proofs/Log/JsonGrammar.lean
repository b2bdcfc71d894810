import Mathlib.Algebra.Ring.Nat

/-!
The grammar of JSON over lists of characters.

`Json.Reads` relates a text to each value that it can be read as. Of strings only those have a content that
stand for characters: an escape of one half of a surrogate pair alone has none.
-/
set_option autoImplicit false
namespace PlatformInit

inductive Json where
  | null
  | bool (b : Bool)
  | number (digits : List Char)
  | text (content : List Char)
  | array (items : List Json)
  | object (members : List (List Char × Json))

namespace Json

/-! ### Blanks and strings -/

def blanks : List Char := [' ', '\t', '\n', '\r']

def Blank (cs : List Char) : Prop := ∀ c ∈ cs, c ∈ blanks

structure Bare (c : Char) : Prop where
  quote : c ≠ '\"'
  backslash : c ≠ '\\'
  printable : 0x20 ≤ c.toNat

def Plain (cs : List Char) : Prop := ∀ c ∈ cs, Bare c

def hexDigit? (c : Char) : Option Nat :=
  if c.isDigit then some (c.toNat - '0'.toNat)
  else if 'a' ≤ c ∧ c ≤ 'f' then some (c.toNat - 'a'.toNat + 10)
  else if 'A' ≤ c ∧ c ≤ 'F' then some (c.toNat - 'A'.toNat + 10)
  else none

def codeUnit? : List Char → Option Nat
  | [a, b, c, d] => do
    return (((← hexDigit? a) * 16 + (← hexDigit? b)) * 16 + (← hexDigit? c)) * 16 + (← hexDigit? d)
  | _ => none

def shortEscapes : List (Char × Char) :=
  [('\"', '\"'), ('\\', '\\'), ('/', '/'), ('b', '\x08'), ('f', '\x0c'), ('n', '\n'), ('r', '\r'), ('t', '\t')]

inductive Escape : List Char → Char → Prop
  | short {c d : Char} (h : (c, d) ∈ shortEscapes) : Escape ['\\', c] d
  | unit {ds : List Char} {n : Nat} (h : codeUnit? ds = some n) (hvalid : n.isValidChar) :
    Escape ('\\' :: 'u' :: ds) (.ofNat n)
  | pair {ds es : List Char} {high low : Nat} (hds : codeUnit? ds = some high) (hes : codeUnit? es = some low)
    (hhigh : 0xd800 ≤ high ∧ high < 0xdc00) (hlow : 0xdc00 ≤ low ∧ low < 0xe000) :
    Escape ('\\' :: 'u' :: (ds ++ '\\' :: 'u' :: es))
      (.ofNat (0x10000 + (high - 0xd800) * 0x400 + (low - 0xdc00)))

/-- What stands between the quotes of a string, and the content. -/
inductive Quotes : List Char → List Char → Prop
  | nil : Quotes [] []
  | bare {c : Char} {raw s : List Char} (hc : Bare c) (h : Quotes raw s) : Quotes (c :: raw) (c :: s)
  | escape {e : List Char} {c : Char} {raw s : List Char} (he : Escape e c) (h : Quotes raw s) :
    Quotes (e ++ raw) (c :: s)

/-! ### Numbers -/

def Digits (cs : List Char) : Prop := cs ≠ [] ∧ ∀ c ∈ cs, c.isDigit = true

inductive Fraction : List Char → Prop
  | none : Fraction []
  | digits {ds : List Char} (h : Digits ds) : Fraction ('.' :: ds)

inductive Exponent : List Char → Prop
  | none : Exponent []
  | digits {e : Char} {sign ds : List Char} (he : e ∈ ['e', 'E']) (hsign : sign ∈ [[], ['+'], ['-']])
    (h : Digits ds) : Exponent (e :: sign ++ ds)

/-- No number but zero itself begins with a zero. -/
inductive Number : List Char → Prop
  | mk {sign whole fraction exponent : List Char} (hsign : sign ∈ [[], ['-']]) (hwhole : Digits whole)
    (hzero : whole.head? = some '0' → whole = ['0']) (hfraction : Fraction fraction)
    (hexponent : Exponent exponent) : Number (sign ++ (whole ++ (fraction ++ exponent)))

/-! ### Values -/

/-- Parts with commas between them. -/
inductive Listed {α : Type} (R : List Char → α → Prop) : List Char → List α → Prop
  | one {w cs w' : List Char} {a : α} (hw : Blank w) (h : R cs a) (hw' : Blank w') :
    Listed R (w ++ (cs ++ w')) [a]
  | more {w cs w' ts : List Char} {a : α} {rest : List α} (hw : Blank w) (h : R cs a) (hw' : Blank w')
    (hrest : Listed R ts rest) : Listed R (w ++ (cs ++ (w' ++ ',' :: ts))) (a :: rest)

inductive Member (R : List Char → Json → Prop) : List Char → List Char × Json → Prop
  | mk {raw key w w' cs : List Char} {v : Json} (hkey : Quotes raw key) (hw : Blank w) (hw' : Blank w')
    (h : R cs v) : Member R ('\"' :: (raw ++ '\"' :: (w ++ ':' :: (w' ++ cs)))) (key, v)

inductive Reads : List Char → Json → Prop
  | null : Reads ['n', 'u', 'l', 'l'] .null
  | false : Reads ['f', 'a', 'l', 's', 'e'] (.bool .false)
  | true : Reads ['t', 'r', 'u', 'e'] (.bool .true)
  | number {cs : List Char} (h : Number cs) : Reads cs (.number cs)
  | text {raw s : List Char} (h : Quotes raw s) : Reads ('\"' :: (raw ++ ['\"'])) (.text s)
  | emptyArray {w : List Char} (hw : Blank w) : Reads ('[' :: (w ++ [']'])) (.array [])
  | array {cs : List Char} {items : List Json} (h : Listed Reads cs items) :
    Reads ('[' :: (cs ++ [']'])) (.array items)
  | emptyObject {w : List Char} (hw : Blank w) : Reads ('\x7b' :: (w ++ ['\x7d'])) (.object [])
  | object {cs : List Char} {members : List (List Char × Json)} (h : Listed (Member Reads) cs members) :
    Reads ('\x7b' :: (cs ++ ['\x7d'])) (.object members)

/-! ### Where a part ends -/

section
variable {w w' s t raw content v r : List Char} {a b : Char}

@[simp] theorem blank_nil : Blank [] := nofun

theorem blank_space : Blank [' '] := List.forall_mem_singleton.mpr (by decide)

theorem blank_cons : Blank (a :: w) ↔ a ∈ blanks ∧ Blank w := List.forall_mem_cons

theorem Blank.append_cancel (hw : Blank w) (hw' : Blank w') (ha : a ∉ blanks) (hb : b ∉ blanks)
    (h : w ++ a :: s = w' ++ b :: t) : w = w' ∧ a = b ∧ s = t := by
  induction w generalizing w' with
  | nil =>
    cases w' with
    | nil => exact ⟨rfl, List.cons.inj h⟩
    | cons c w' => exact absurd ((List.cons.inj h).1 ▸ (blank_cons.mp hw').1) ha
  | cons c w ih =>
    cases w' with
    | nil => exact absurd ((List.cons.inj h).1 ▸ (blank_cons.mp hw).1) hb
    | cons d w' =>
      obtain ⟨hcd, hrest⟩ := List.cons.inj h
      obtain ⟨hww', hab, hst⟩ := ih (blank_cons.mp hw).2 (blank_cons.mp hw').2 hrest
      exact ⟨by rw [hcd, hww'], hab, hst⟩

theorem quote_not_mem_of_codeUnit? {ds : List Char} {n : Nat} (h : codeUnit? ds = some n) :
    '\"' ∉ ds := by
  have hquote : hexDigit? '\"' = none := by decide
  unfold codeUnit? at h
  split at h
  · rename_i a b c d
    intro hmem
    simp only [List.mem_cons, List.not_mem_nil, or_false] at hmem
    obtain rfl | rfl | rfl | rfl := hmem <;> simp [hquote] at h
  · cases h

theorem Escape.eq_cons {e : List Char} {c : Char} (h : Escape e c) :
    ∃ d rest, e = '\\' :: d :: rest ∧ '\"' ∉ rest := by
  cases h with
  | short h => exact ⟨_, [], rfl, nofun⟩
  | unit h _ => exact ⟨'u', _, rfl, quote_not_mem_of_codeUnit? h⟩
  | pair hds hes _ _ =>
    refine ⟨'u', _, rfl, fun hmem => ?_⟩
    rcases List.mem_append.mp hmem with hmem | hmem
    · exact quote_not_mem_of_codeUnit? hds hmem
    · simp only [List.mem_cons] at hmem
      rcases hmem with hmem | hmem | hmem
      · cases hmem
      · cases hmem
      · exact quote_not_mem_of_codeUnit? hes hmem

theorem quotes_of_plain (hplain : Plain v) : Quotes v v := by
  induction v with
  | nil => exact .nil
  | cons c v ih =>
    obtain ⟨hc, hv⟩ := List.forall_mem_cons.mp hplain
    exact .bare hc (ih hv)

theorem Quotes.length_le (h : Quotes raw content) : content.length ≤ raw.length := by
  induction h with
  | nil => exact Nat.le_refl _
  | bare _ _ ih => exact Nat.succ_le_succ ih
  | escape he _ ih =>
    obtain ⟨d, rest, rfl, -⟩ := he.eq_cons
    simp only [List.length_cons, List.length_append]
    omega

/-- An escape is longer than what it stands for. -/
theorem Quotes.plain_of_length_eq (h : Quotes raw content) (hlength : content.length = raw.length) :
    Plain raw := by
  induction h with
  | nil => exact nofun
  | bare hc _ ih => exact List.forall_mem_cons.mpr ⟨hc, ih (Nat.succ.inj hlength)⟩
  | escape he hraw _ =>
    have hle := hraw.length_le
    obtain ⟨d, rest, rfl, -⟩ := he.eq_cons
    simp only [List.length_cons, List.length_append] at hlength
    omega

theorem Quotes.backslash_before (h : Quotes raw content) (hsplit : raw = s ++ '\"' :: t) :
    ∃ s', s = s' ++ ['\\'] := by
  induction h generalizing s with
  | nil => exact absurd hsplit (by simp)
  | @bare c raw _ hc _ ih =>
    cases s with
    | nil => exact absurd (List.cons.inj hsplit).1 hc.quote
    | cons d s =>
      obtain ⟨s', rfl⟩ := ih (List.cons.inj hsplit).2
      exact ⟨d :: s', rfl⟩
  | escape he _ ih =>
    obtain ⟨d, rest, rfl, hrest⟩ := he.eq_cons
    match s, hsplit with
    | [], hsplit => exact absurd (List.cons.inj hsplit).1 (by decide)
    | [_], hsplit => exact ⟨[], by rw [(List.cons.inj hsplit).1, List.nil_append]⟩
    | b :: c :: s, hsplit =>
      obtain ⟨-, htail⟩ := List.cons.inj hsplit
      rcases List.append_eq_append_iff.mp (List.cons.inj htail).2 with ⟨inner, rfl, hraw⟩ | ⟨inner, rfl, hraw⟩
      · obtain ⟨s', rfl⟩ := ih hraw
        exact ⟨b :: c :: (rest ++ s'), by simp⟩
      · cases inner with
        | nil =>
          obtain ⟨s', hs'⟩ := ih (s := []) hraw.symm
          exact absurd hs' (by simp)
        | cons q inner =>
          rw [← (List.cons.inj hraw).1] at hrest
          exact absurd (List.mem_append_right s List.mem_cons_self) hrest

/-- A string whose first characters stand for themselves ends where they do. -/
theorem Quotes.eq_of_plain (h : Quotes raw content) (hplain : Plain v)
    (hsplit : raw ++ '\"' :: r = v ++ '\"' :: t) : raw = v ∧ content = v ∧ r = t := by
  induction v generalizing raw content with
  | nil =>
    cases h with
    | nil => exact ⟨rfl, rfl, (List.cons.inj hsplit).2⟩
    | bare hc _ => exact absurd (List.cons.inj hsplit).1 hc.quote
    | escape he _ =>
      obtain ⟨d, rest, rfl, -⟩ := he.eq_cons
      exact absurd (List.cons.inj hsplit).1 (by decide)
  | cons c v ih =>
    obtain ⟨hc, hv⟩ := List.forall_mem_cons.mp hplain
    cases h with
    | nil => exact absurd (List.cons.inj hsplit).1.symm hc.quote
    | bare _ h =>
      obtain ⟨rfl, hrest⟩ := List.cons.inj hsplit
      obtain ⟨rfl, rfl, hrt⟩ := ih h hv hrest
      exact ⟨rfl, rfl, hrt⟩
    | escape he _ =>
      obtain ⟨d, rest, rfl, -⟩ := he.eq_cons
      exact absurd (List.cons.inj hsplit).1.symm hc.backslash

/-! ### Values -/

theorem not_blank_of_isDigit {c : Char} (h : c.isDigit = true) : c ∉ blanks ∧ c ≠ '\"' := by
  refine ⟨fun hblank => ?_, fun hquote => ?_⟩
  · simp only [blanks, List.mem_cons, List.not_mem_nil, or_false] at hblank
    obtain rfl | rfl | rfl | rfl := hblank <;> exact absurd h (by decide)
  · exact absurd (hquote ▸ h) (by decide)

theorem Number.eq_cons {cs : List Char} (h : Number cs) :
    ∃ c rest, cs = c :: rest ∧ c ∉ blanks ∧ c ≠ '\"' := by
  obtain ⟨hsign, hwhole, -, -, -⟩ := h
  simp only [List.mem_cons, List.not_mem_nil, or_false] at hsign
  obtain rfl | rfl := hsign
  · obtain ⟨d, rest, rfl⟩ := List.exists_cons_of_ne_nil hwhole.1
    exact ⟨d, _, rfl, not_blank_of_isDigit (hwhole.2 d List.mem_cons_self)⟩
  · exact ⟨'-', _, rfl, by decide⟩

theorem Reads.eq_cons {cs : List Char} {value : Json} (h : Reads cs value) :
    ∃ c rest, cs = c :: rest ∧ c ∉ blanks ∧
      (c = '\"' → ∃ raw content, rest = raw ++ ['\"'] ∧ Quotes raw content ∧ value = .text content) := by
  cases h with
  | null | false | true | emptyArray | array | emptyObject | object =>
    exact ⟨_, _, rfl, by decide, fun hquote => absurd hquote (by decide)⟩
  | number h =>
    obtain ⟨c, rest, rfl, hblank, hquote⟩ := h.eq_cons
    exact ⟨c, rest, rfl, hblank, fun heq => absurd heq hquote⟩
  | text h => exact ⟨_, _, rfl, by decide, fun _ => ⟨_, _, rfl, h, rfl⟩⟩

theorem Reads.text_eq_cons {cs content : List Char} (h : Reads cs (.text content)) :
    ∃ raw, cs = '\"' :: (raw ++ ['\"']) ∧ Quotes raw content := by
  cases h with
  | text h => exact ⟨_, rfl, h⟩

theorem reads_object {cs : List Char} {members : List (List Char × Json)} :
    Reads ('\x7b' :: (cs ++ ['\x7d'])) (.object members) ↔
      (Blank cs ∧ members = []) ∨ Listed (Member Reads) cs members := by
  constructor
  · intro h
    generalize hcs : '\x7b' :: (cs ++ ['\x7d']) = text at h
    cases h with
    | emptyObject hw => exact .inl ⟨List.append_cancel_right (List.cons.inj hcs).2 ▸ hw, rfl⟩
    | object h => exact .inr (List.append_cancel_right (List.cons.inj hcs).2 ▸ h)
  · rintro (⟨hw, rfl⟩ | h)
    · exact .emptyObject hw
    · exact .object h

/-- What stands behind a part: nothing, or a comma and further parts. -/
inductive Behind {α : Type} (R : List Char → α → Prop) : List Char → List α → Prop
  | none {w : List Char} (hw : Blank w) : Behind R w []
  | comma {w ts : List Char} {rest : List α} (hw : Blank w) (h : Listed R ts rest) :
    Behind R (w ++ ',' :: ts) rest

theorem Listed.eq_cons {α : Type} {R : List Char → α → Prop} {cs : List Char} {parts : List α}
    (h : Listed R cs parts) :
    ∃ w part r first later, cs = w ++ (part ++ r) ∧ parts = first :: later ∧ Blank w ∧ R part first ∧
      Behind R r later := by
  cases h with
  | one hw hpart hw' => exact ⟨_, _, _, _, _, rfl, rfl, hw, hpart, .none hw'⟩
  | more hw hpart hw' hrest => exact ⟨_, _, _, _, _, rfl, rfl, hw, hpart, .comma hw' hrest⟩

theorem Listed.first_of_plain {w key v tail : List Char} {members : List (List Char × Json)} (hw : Blank w)
    (hkey : Plain key)
    (h : Listed (Member Reads) (w ++ '\"' :: (key ++ '\"' :: ':' :: ' ' :: '\"' :: (v ++ '\"' :: tail))) members) :
    ∃ raw content r later, members = (key, .text content) :: later ∧ Quotes raw content ∧
      raw ++ '\"' :: r = v ++ '\"' :: tail ∧ Behind (Member Reads) r later := by
  obtain ⟨w₀, part, r, first, later, htext, rfl, hw₀, hfirst, hbehind⟩ := h.eq_cons
  obtain ⟨hkeyQuotes, hw₁, hw₂, hvalue⟩ := hfirst
  simp only [List.cons_append, List.append_assoc] at htext
  obtain ⟨-, -, hbehindQuote⟩ := hw.append_cancel hw₀ (by decide) (by decide) htext
  obtain ⟨rfl, rfl, hcolon⟩ := hkeyQuotes.eq_of_plain hkey hbehindQuote.symm
  obtain ⟨-, -, hspace⟩ := hw₁.append_cancel blank_nil (by decide) (by decide) hcolon
  obtain ⟨c, rest, rfl, hc, hstring⟩ := hvalue.eq_cons
  obtain ⟨-, rfl, hvalueText⟩ := hw₂.append_cancel blank_space hc (by decide) hspace
  obtain ⟨raw, content, rfl, hquotes, rfl⟩ := hstring rfl
  exact ⟨raw, content, r, later, rfl, hquotes, (List.append_assoc raw _ r).symm.trans hvalueText, hbehind⟩

def room : List Char × Json → Nat
  | (key, .text content) => key.length + content.length + 6
  | _ => 0

theorem Member.room_le {cs : List Char} {member : List Char × Json} (h : Member Reads cs member) :
    room member ≤ cs.length + 1 := by
  obtain ⟨hkey, -, -, hvalue⟩ := h
  rename_i value
  cases value with
  | text content =>
    obtain ⟨raw, rfl, hraw⟩ := hvalue.text_eq_cons
    have hkeyLength := hkey.length_le
    have hrawLength := hraw.length_le
    simp only [room, List.length_cons, List.length_append, List.length_nil]
    omega
  | _ => exact Nat.zero_le _

theorem Listed.room_le {cs : List Char} {members : List (List Char × Json)}
    (h : Listed (Member Reads) cs members) : (members.map room).sum ≤ cs.length + 1 := by
  induction h with
  | one _ hmember _ =>
    have hroom := hmember.room_le
    simp only [List.map_cons, List.map_nil, List.sum_cons, List.sum_nil, List.length_append]
    omega
  | more _ hmember _ _ ih =>
    have hroom := hmember.room_le
    simp only [List.map_cons, List.sum_cons, List.length_append, List.length_cons]
    omega

end

end Json
end PlatformInit
