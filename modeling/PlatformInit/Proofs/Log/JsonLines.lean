import PlatformInit.Log.Record
import PlatformInit.Proofs.Log.JsonGrammar
import Mathlib.Algebra.Order.BigOperators.Group.List
import Mathlib.Algebra.Order.Group.Nat
import Mathlib.Data.List.Nodup

/-!
The JSON lines of the log, read by the grammar of JSON.

The texts of a record stand between the quotes as they are. A line tells its record exactly when the texts
are plain; a text that is not gives another record, or no object at all.
-/
set_option autoImplicit false
namespace PlatformInit.Log
open Json (Plain Blank Quotes Listed Member Behind Reads room)

/-- The text is one line, and the line is an object with these members. -/
def ShowsObject (text : String) (members : List (List Char × Json)) : Prop :=
  ∃ cs, text.toList = cs ++ ['\n'] ∧ '\n' ∉ cs ∧ Reads cs (.object members)

def memberOf (field : String × String) : List Char × Json := (field.1.toList, .text field.2.toList)

/-- Somewhere in the object of the line there is each of the fields. -/
def Tells (text : String) (fields : List (String × String)) : Prop :=
  ∃ members, ShowsObject text members ∧ ∀ f ∈ fields, memberOf f ∈ members

/-- The line is an object, and its members can only be the fields. -/
def Shows (text : String) (fields : List (String × String)) : Prop :=
  ∀ members, ShowsObject text members ↔ members = fields.map memberOf

/-! ### The text of a line -/

def laterFields : List (String × String) → List Char
  | [] => []
  | f :: fs => ',' :: ' ' :: ((jsonField f.1 f.2).toList ++ laterFields fs)

def fieldsText (f : String × String) (fs : List (String × String)) : List Char :=
  (jsonField f.1 f.2).toList ++ laterFields fs

section
variable {f : String × String} {fs : List (String × String)} {w raw content r : List Char}
  {members later : List (List Char × Json)}

theorem laterFields_cons (f : String × String) (fs : List (String × String)) :
    laterFields (f :: fs) = ',' :: ' ' :: fieldsText f fs := rfl

theorem fieldsText_eq (f : String × String) (fs : List (String × String)) :
    fieldsText f fs =
      '\"' :: (f.1.toList ++ '\"' :: ':' :: ' ' :: '\"' :: (f.2.toList ++ '\"' :: laterFields fs)) := by
  simp [fieldsText, jsonField]

theorem toList_jsonLine (f : String × String) (fs : List (String × String)) :
    (jsonLine (f :: fs)).toList = '\x7b' :: (fieldsText f fs ++ ['\x7d']) ++ ['\n'] := by
  have hjoin : [',', ' '].intercalate ((f :: fs).map fun g => (jsonField g.1 g.2).toList) =
      fieldsText f fs := by
    induction fs generalizing f with
    | nil => simp [fieldsText, laterFields]
    | cons g gs ih =>
      rw [List.map_cons, List.map_cons, List.intercalate_cons_cons,
        ← List.map_cons (f := fun g : String × String => (jsonField g.1 g.2).toList), ih]
      simp [fieldsText, laterFields]
  rw [jsonLine, String.toList_append, String.toList_append, String.toList_intercalate, List.map_map]
  exact congrArg (fun cs => '\x7b' :: (cs ++ ['\x7d', '\n'])) hjoin |>.trans (by simp)

theorem length_fieldsText (f : String × String) (fs : List (String × String)) :
    (fieldsText f fs).length = (((f :: fs).map memberOf).map room).sum + 2 * fs.length := by
  induction fs generalizing f with
  | nil =>
    simp only [fieldsText_eq, laterFields, List.map_cons, List.map_nil, List.sum_cons, List.sum_nil, memberOf,
      room, List.length_append, List.length_cons, List.length_nil]
    omega
  | cons g gs ih =>
    rw [fieldsText_eq, laterFields_cons, List.map_cons, List.map_cons, List.sum_cons]
    simp only [List.length_cons, List.length_append, ih g, memberOf, room]
    omega

/-! ### Names -/

/-- The names of fields are plain words. None is so short that the fields with `n` blanks before them leave
room for a further member of that name. -/
structure Named (n : Nat) (fields : List (String × String)) : Prop where
  letters : ∀ f ∈ fields, f.1.toList ≠ [] ∧ ∀ c ∈ f.1.toList, c.isAlphanum = true
  nodup : (fields.map fun f => f.1.toList).Nodup
  long : ∀ f ∈ fields, n + 2 * fields.length ≤ f.1.toList.length + 6

theorem Named.tail {n : Nat} (h : Named n (f :: fs)) : Named 1 fs where
  letters g hg := h.letters g (List.mem_cons_of_mem f hg)
  nodup := (List.nodup_cons.mp h.nodup).2
  long g hg := by
    have hlong := h.long g (List.mem_cons_of_mem f hg)
    rw [List.length_cons] at hlong
    omega

theorem bare_of_isAlphanum {c : Char} (h : c.isAlphanum = true) :
    Json.Bare c ∧ c ∉ Json.blanks ∧ c ≠ ',' := by
  refine ⟨⟨?_, ?_, ?_⟩, ?_, ?_⟩
  · rintro rfl
    exact absurd h (by decide)
  · rintro rfl
    exact absurd h (by decide)
  · by_contra hcontrol
    have hcontrols : ∀ n < 0x20, (Char.ofNat n).isAlphanum = false := by decide
    rw [← Char.ofNat_toNat c, hcontrols _ (Nat.not_le.mp hcontrol)] at h
    cases h
  · intro hblank
    simp only [Json.blanks, List.mem_cons, List.not_mem_nil, or_false] at hblank
    obtain rfl | rfl | rfl | rfl := hblank <;> exact absurd h (by decide)
  · rintro rfl
    exact absurd h (by decide)

theorem plain_of_isAlphanum {cs : List Char} (h : ∀ c ∈ cs, c.isAlphanum = true) : Plain cs :=
  fun c hc => (bare_of_isAlphanum (h c hc)).1

theorem Named.plain {n : Nat} (h : Named n (f :: fs)) : Plain f.1.toList :=
  plain_of_isAlphanum (h.letters f List.mem_cons_self).2

/-! ### Plain texts -/

/-! What is behind the string of a field that ends where its text does. -/

theorem eq_nil_of_behind (h : Behind (Member Reads) (laterFields []) later) : later = [] := by
  generalize htext : laterFields [] = text at h
  cases h with
  | none _ => rfl
  | comma _ _ => exact absurd htext (by simp [laterFields])

theorem listed_of_behind (h : Behind (Member Reads) (laterFields (f :: fs)) later) :
    Listed (Member Reads) ([' '] ++ fieldsText f fs) later := by
  generalize htext : laterFields (f :: fs) = text at h
  rw [laterFields_cons] at htext
  cases h with
  | none hw => exact absurd (Json.blank_cons.mp (htext ▸ hw)).1 (by decide)
  | comma hw h =>
    obtain ⟨-, -, rfl⟩ := Json.blank_nil.append_cancel hw (by decide) (by decide) htext
    exact h

theorem first_of_plain {n : Nat} (hnames : Named n (f :: fs)) (hw : Blank w) (hplain : Plain f.2.toList)
    (h : Listed (Member Reads) (w ++ fieldsText f fs) members) :
    ∃ later, members = memberOf f :: later ∧ Behind (Member Reads) (laterFields fs) later := by
  rw [fieldsText_eq] at h
  obtain ⟨raw, content, r, later, rfl, hquotes, hsplit, hbehind⟩ := h.first_of_plain hw hnames.plain
  obtain ⟨-, rfl, rfl⟩ := hquotes.eq_of_plain hplain hsplit
  exact ⟨later, rfl, hbehind⟩

theorem members_eq_of_plain {n : Nat} (hnames : Named n (f :: fs)) (hw : Blank w)
    (hplain : ∀ g ∈ f :: fs, Plain g.2.toList)
    (h : Listed (Member Reads) (w ++ fieldsText f fs) members) :
    members = (f :: fs).map memberOf := by
  obtain ⟨later, rfl, hbehind⟩ := first_of_plain hnames hw (hplain f List.mem_cons_self) h
  refine congrArg (memberOf f :: ·) ?_
  induction fs generalizing n f w later with
  | nil => exact eq_nil_of_behind hbehind
  | cons g gs ih =>
    have hlater := listed_of_behind hbehind
    have hrest := (List.forall_mem_cons.mp hplain).2
    obtain ⟨later', rfl, hbehind'⟩ :=
      first_of_plain hnames.tail Json.blank_space (hrest g List.mem_cons_self) hlater
    exact congrArg (memberOf g :: ·) (ih hnames.tail Json.blank_space hrest later' hbehind' hlater)

theorem member_jsonField (hkey : Plain f.1.toList) (hplain : Plain f.2.toList) :
    Member Reads (jsonField f.1 f.2).toList (memberOf f) := by
  have htext : (jsonField f.1 f.2).toList = fieldsText f [] := (List.append_nil _).symm
  rw [htext, fieldsText_eq]
  exact .mk (Json.quotes_of_plain hkey) Json.blank_nil Json.blank_space (.text (Json.quotes_of_plain hplain))

theorem listed_of_plain {n : Nat} (hnames : Named n (f :: fs)) (hw : Blank w)
    (hplain : ∀ g ∈ f :: fs, Plain g.2.toList) :
    Listed (Member Reads) (w ++ fieldsText f fs) ((f :: fs).map memberOf) := by
  have hfirst := member_jsonField hnames.plain (hplain f List.mem_cons_self)
  induction fs generalizing n f w with
  | nil => exact .one hw hfirst Json.blank_nil
  | cons g gs ih =>
    have hrest := (List.forall_mem_cons.mp hplain).2
    exact .more hw hfirst Json.blank_nil (ih hnames.tail Json.blank_space hrest
      (member_jsonField hnames.tail.plain (hrest g List.mem_cons_self)))

/-! ### Texts that are told -/

/-- A string that goes on behind the quote of its field cannot end. The next quote has a blank before it, so
it is no part of the string, and the name behind it is no end. -/
theorem overrun {n : Nat} {v rest : List Char} (hnames : Named n fs) (hquotes : Quotes (v ++ '\"' :: rest) content)
    (hsplit : laterFields fs = rest ++ '\"' :: r) (hbehind : Behind (Member Reads) r later) : False := by
  cases fs with
  | nil => exact absurd hsplit (by simp [laterFields])
  | cons g gs =>
    obtain ⟨hne, hletters⟩ := hnames.letters g List.mem_cons_self
    obtain ⟨c, cs, hkey⟩ := List.exists_cons_of_ne_nil hne
    obtain ⟨-, hblank, hcomma⟩ := bare_of_isAlphanum (hletters c (hkey ▸ List.mem_cons_self))
    rw [laterFields_cons, fieldsText_eq, hkey] at hsplit
    -- `rest` is what the string takes of the comma, the blank, the quote and the name behind its own quote.
    match rest, hsplit with
    | [], hsplit => exact absurd (List.cons.inj hsplit).1 (by decide)
    | [_], hsplit => exact absurd (List.cons.inj (List.cons.inj hsplit).2).1 (by decide)
    | [_, _], hsplit =>
      obtain ⟨-, hr⟩ := List.cons.inj (List.cons.inj (List.cons.inj hsplit).2).2
      cases hbehind with
      | none hw => exact hblank (Json.blank_cons.mp (hr ▸ hw)).1
      | comma hw _ =>
        obtain ⟨-, hcomma', -⟩ := Json.blank_nil.append_cancel hw hblank (by decide) hr
        exact hcomma hcomma'
    | x :: y :: z :: rest, hsplit =>
      obtain ⟨-, hsplit⟩ := List.cons.inj hsplit
      obtain ⟨hy, hsplit⟩ := List.cons.inj hsplit
      obtain ⟨hz, -⟩ := List.cons.inj hsplit
      obtain ⟨s, hs⟩ := hquotes.backslash_before (s := v ++ ['\"', x, y]) (t := rest) (by simp [← hz])
      have hlast := congrArg List.getLast? hs
      simp [← hy] at hlast

theorem plain_of_content {n : Nat} {v : List Char} (hnames : Named n fs) (hquotes : Quotes raw v)
    (hsplit : raw ++ '\"' :: r = v ++ '\"' :: laterFields fs) (hbehind : Behind (Member Reads) r later) :
    Plain v := by
  have hlength := hquotes.length_le
  rcases List.append_eq_append_iff.mp hsplit with ⟨rest, rfl, hrest⟩ | ⟨rest, rfl, hrest⟩
  · rw [List.length_append] at hlength
    obtain rfl : rest = [] := List.length_eq_zero_iff.mp (by omega)
    rw [List.append_nil] at hquotes ⊢
    exact hquotes.plain_of_length_eq rfl
  · cases rest with
    | nil =>
      rw [List.append_nil] at hquotes
      exact hquotes.plain_of_length_eq rfl
    | cons q rest =>
      obtain ⟨rfl, htail⟩ := List.cons.inj hrest
      exact (overrun hnames hquotes htail hbehind).elim

theorem sum_room_le {members₁ members₂ : List (List Char × Json)} (hnodup : members₁.Nodup)
    (hsubset : members₁ ⊆ members₂) : (members₁.map room).sum ≤ (members₂.map room).sum := by
  obtain ⟨members, hperm, hsublist⟩ := List.subperm_of_subset hnodup hsubset
  rw [← (hperm.map room).sum_eq]
  exact (hsublist.map room).sum_le_sum fun _ _ => Nat.zero_le _

/-- Not all fields can stand behind the first member: together with it they would take more room than the
text has. -/
theorem crowded {n : Nat} (hnames : Named n (f :: fs)) (hw : w.length ≤ n)
    (h : Listed (Member Reads) (w ++ fieldsText f fs)
      ((f.1.toList, .text content) :: later))
    (hlater : ∀ g ∈ f :: fs, memberOf g ∈ later) : False := by
  have hnodup : ((f :: fs).map memberOf).Nodup := by
    refine List.Nodup.of_map Prod.fst ?_
    rw [List.map_map]
    exact hnames.nodup
  have hsubset : (f :: fs).map memberOf ⊆ later := fun m hm => by
    obtain ⟨g, hg, rfl⟩ := List.mem_map.mp hm
    exact hlater g hg
  have hsum := sum_room_le hnodup hsubset
  have hroom := h.room_le
  have hlong := hnames.long f List.mem_cons_self
  rw [List.map_cons, List.sum_cons, List.length_append, length_fieldsText, room] at hroom
  rw [List.length_cons] at hlong
  omega

theorem Named.told_later {n : Nat} {value : Json} (hnames : Named n (f :: fs))
    (htold : ∀ g ∈ f :: fs, memberOf g ∈ (f.1.toList, value) :: later) : ∀ g ∈ fs, memberOf g ∈ later := by
  intro g hg
  obtain hfirst | hmem := List.mem_cons.mp (htold g (List.mem_cons_of_mem f hg))
  · have hfresh := (List.nodup_cons.mp hnames.nodup).1
    exact absurd (List.mem_map.mpr ⟨g, hg, (Prod.mk.inj hfirst).1⟩) hfresh
  · exact hmem

/-- Where all fields are told, the first is told by the string that stands in its place, and so its text is
plain. -/
theorem first_of_told {n : Nat} (hnames : Named n (f :: fs)) (hw : Blank w) (hlength : w.length ≤ n)
    (h : Listed (Member Reads) (w ++ fieldsText f fs) members)
    (htold : ∀ g ∈ f :: fs, memberOf g ∈ members) : Plain f.2.toList := by
  have htext := h
  rw [fieldsText_eq] at htext
  obtain ⟨raw, content, r, later, rfl, hquotes, hsplit, hbehind⟩ := htext.first_of_plain hw hnames.plain
  obtain hfirst | hmem := List.mem_cons.mp (htold f List.mem_cons_self)
  · obtain rfl := Json.text.inj (Prod.mk.inj hfirst).2
    exact plain_of_content hnames.tail hquotes hsplit hbehind
  · exact (crowded hnames hlength h (List.forall_mem_cons.mpr ⟨hmem, hnames.told_later htold⟩)).elim

theorem plain_of_told {n : Nat} (hnames : Named n (f :: fs)) (hw : Blank w) (hlength : w.length ≤ n)
    (h : Listed (Member Reads) (w ++ fieldsText f fs) members)
    (htold : ∀ g ∈ f :: fs, memberOf g ∈ members) : ∀ g ∈ f :: fs, Plain g.2.toList := by
  have hplain := first_of_told hnames hw hlength h htold
  induction fs generalizing n f w members with
  | nil => exact List.forall_mem_singleton.mpr hplain
  | cons g gs ih =>
    obtain ⟨later, rfl, hbehind⟩ := first_of_plain hnames hw hplain h
    have hlater := listed_of_behind hbehind
    have htold' := hnames.told_later htold
    have hlength' := Nat.le_refl [' '].length
    exact List.forall_mem_cons.mpr ⟨hplain, ih hnames.tail Json.blank_space hlength' hlater htold'
      (first_of_told hnames.tail Json.blank_space hlength' hlater htold')⟩

/-! ### Lines -/

theorem showsObject_jsonLine : ShowsObject (jsonLine (f :: fs)) members ↔
    '\n' ∉ fieldsText f fs ∧
      Listed (Member Reads) (fieldsText f fs) members := by
  rw [ShowsObject, toList_jsonLine]
  constructor
  · rintro ⟨cs, htext, hline, hobject⟩
    obtain rfl := List.append_cancel_right htext
    obtain ⟨hblank, -⟩ | hlisted := Json.reads_object.mp hobject
    · rw [fieldsText_eq] at hblank
      exact absurd (Json.blank_cons.mp hblank).1 (by decide)
    · exact ⟨fun hmem => hline (List.mem_cons_of_mem _ (List.mem_append_left _ hmem)), hlisted⟩
  · rintro ⟨hline, hlisted⟩
    refine ⟨_, rfl, fun hmem => ?_, .object hlisted⟩
    obtain hbrace | hmem := List.mem_cons.mp hmem
    · exact absurd hbrace (by decide)
    obtain hmem | hbrace := List.mem_append.mp hmem
    · exact hline hmem
    · exact absurd hbrace (by decide)

theorem newline_not_mem_of_plain {cs : List Char} (h : Plain cs) : '\n' ∉ cs :=
  fun hmem => absurd (h _ hmem).printable (by decide)

theorem newline_not_mem_fieldsText {n : Nat} (hnames : Named n (f :: fs))
    (hplain : ∀ g ∈ f :: fs, Plain g.2.toList) : '\n' ∉ fieldsText f fs := by
  have hlater : '\n' ∉ laterFields fs := by
    induction fs generalizing n f with
    | nil => exact nofun
    | cons g gs ih =>
      have hkey := newline_not_mem_of_plain hnames.tail.plain
      have hrest := (List.forall_mem_cons.mp hplain).2
      have hvalue := newline_not_mem_of_plain (hrest g List.mem_cons_self)
      simp [laterFields_cons, fieldsText_eq, hkey, hvalue, ih hnames.tail hrest]
  have hkey := newline_not_mem_of_plain hnames.plain
  have hvalue := newline_not_mem_of_plain (hplain f List.mem_cons_self)
  simp [fieldsText_eq, hkey, hvalue, hlater]

theorem showsObject_of_plain {n : Nat} (hnames : Named n (f :: fs)) (hplain : ∀ g ∈ f :: fs, Plain g.2.toList) :
    Shows (jsonLine (f :: fs)) (f :: fs) := by
  intro members
  rw [showsObject_jsonLine]
  constructor
  · exact fun h => members_eq_of_plain hnames Json.blank_nil hplain h.2
  · rintro rfl
    exact ⟨newline_not_mem_fieldsText hnames hplain, listed_of_plain hnames Json.blank_nil hplain⟩

theorem Shows.tells {text : String} {fields : List (String × String)} (h : Shows text fields) :
    Tells text fields :=
  ⟨_, (h _).mpr rfl, fun _ hg => List.mem_map_of_mem hg⟩

theorem tells_jsonLine_iff {n : Nat} (hnames : Named n (f :: fs)) :
    Tells (jsonLine (f :: fs)) (f :: fs) ↔ ∀ g ∈ f :: fs, Plain g.2.toList := by
  constructor
  · rintro ⟨members, hobject, htold⟩
    exact plain_of_told hnames Json.blank_nil (Nat.zero_le n) (showsObject_jsonLine.mp hobject).2 htold
  · exact fun hplain => (showsObject_of_plain hnames hplain).tells

theorem shows_jsonLine_iff {n : Nat} (hnames : Named n (f :: fs)) :
    Shows (jsonLine (f :: fs)) (f :: fs) ↔ ∀ g ∈ f :: fs, Plain g.2.toList :=
  ⟨fun h => (tells_jsonLine_iff hnames).mp h.tells, showsObject_of_plain hnames⟩

theorem tells_later_iff {n : Nat} (hnames : Named n (f :: fs)) (hplain : Plain f.2.toList) :
    Tells (jsonLine (f :: fs)) fs ↔ ∀ g ∈ fs, Plain g.2.toList := by
  have hiff : Tells (jsonLine (f :: fs)) fs ↔ Tells (jsonLine (f :: fs)) (f :: fs) := by
    constructor
    · rintro ⟨members, hobject, htold⟩
      have hlisted := (showsObject_jsonLine.mp hobject).2
      obtain ⟨later, rfl, -⟩ := first_of_plain hnames Json.blank_nil hplain hlisted
      exact ⟨_, hobject, List.forall_mem_cons.mpr ⟨List.mem_cons_self, htold⟩⟩
    · rintro ⟨members, hobject, htold⟩
      exact ⟨members, hobject, (List.forall_mem_cons.mp htold).2⟩
  rw [hiff, tells_jsonLine_iff hnames, List.forall_mem_cons]
  exact and_iff_right hplain

/-! ### Records -/

theorem Level.plain_name (l : Level) : Plain l.name.toList := by
  refine plain_of_isAlphanum (List.all_eq_true.mp ?_)
  cases l <;> rfl

theorem Record.plain_lineText (r : Record) : Plain r.lineText.toList := by
  apply plain_of_isAlphanum
  intro c hc
  rw [Record.lineText, Nat.toString_eq_repr, Nat.toList_repr] at hc
  exact Bool.or_eq_true_iff.mpr (.inr (Nat.isDigit_of_mem_toDigits (by decide) (by decide) hc))

theorem named_json (a b : String) : Named 0 [("level", a), ("message", b)] where
  letters := by simp
  nodup := by simp
  long := by simp

theorem named_verboseJson (a b c d e : String) :
    Named 0 [("level", a), ("target", b), ("message", c), ("file", d), ("line", e)] where
  letters := by simp
  nodup := by simp
  long := by simp

end

theorem tells_json_iff (r : Record) :
    Tells (Format.json.line r) [("message", r.message)] ↔ Plain r.message.toList :=
  (tells_later_iff (named_json r.level.name r.message) r.level.plain_name).trans List.forall_mem_singleton

theorem shows_json_iff (r : Record) :
    Shows (Format.json.line r) [("level", r.level.name), ("message", r.message)] ↔ Plain r.message.toList := by
  refine (shows_jsonLine_iff (named_json r.level.name r.message)).trans ?_
  rw [List.forall_mem_cons, List.forall_mem_singleton]
  exact and_iff_right r.level.plain_name

theorem verboseJson_plain_iff (r : Record) :
    (∀ f ∈ [("target", r.target), ("message", r.message), ("file", r.fileText), ("line", r.lineText)],
      Plain f.2.toList) ↔ Plain r.target.toList ∧ Plain r.message.toList ∧ Plain r.fileText.toList := by
  rw [List.forall_mem_cons, List.forall_mem_cons, List.forall_mem_cons, List.forall_mem_singleton,
    and_iff_left r.plain_lineText]

/-- A JSON line tells what its record says exactly when the texts of the record are plain: no quote, no
backslash and no control character. Then there is nothing else to read in it. -/
theorem Format.json_tells_iff_plain (r : Record) :
    (Tells (Format.json.line r) [("message", r.message)] ↔ Plain r.message.toList) ∧
      (Shows (Format.json.line r) [("level", r.level.name), ("message", r.message)] ↔ Plain r.message.toList) ∧
      (Tells (Format.verboseJson.line r)
          [("target", r.target), ("message", r.message), ("file", r.fileText), ("line", r.lineText)] ↔
        Plain r.target.toList ∧ Plain r.message.toList ∧ Plain r.fileText.toList) ∧
      (Shows (Format.verboseJson.line r) [("level", r.level.name), ("target", r.target),
          ("message", r.message), ("file", r.fileText), ("line", r.lineText)] ↔
        Plain r.target.toList ∧ Plain r.message.toList ∧ Plain r.fileText.toList) := by
  have hnames := named_verboseJson r.level.name r.target r.message r.fileText r.lineText
  refine ⟨tells_json_iff r, shows_json_iff r, ?_, ?_⟩
  · exact (tells_later_iff hnames r.level.plain_name).trans (verboseJson_plain_iff r)
  · refine (shows_jsonLine_iff hnames).trans ?_
    rw [List.forall_mem_cons]
    exact (and_iff_right r.level.plain_name).trans (verboseJson_plain_iff r)

/-- A message with a quote in it is not told. -/
theorem Format.quoted_message_lost :
    let r : Record := ⟨.warn, "t", "a\"b", none, none⟩
    Format.json.line r = "\x7b\"level\": \"WARN\", \"message\": \"a\"b\"\x7d\n" ∧
      ¬ Tells (Format.json.line r) [("message", r.message)] := by
  intro r
  refine ⟨rfl, fun htells => ?_⟩
  have hplain := (tells_json_iff r).mp htells
  exact (hplain '\"' (by decide)).quote rfl

end PlatformInit.Log
