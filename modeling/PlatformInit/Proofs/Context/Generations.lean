import PlatformInit.Context.Arena
import PlatformInit.Proofs.Noted

/-!
Handles of the arena over its whole history.

`ConfigArena.run` makes operations one after another and notes what each of them did. From the notes
alone one reads which handles were issued, which of them are of the current generation, and which
bytes a handle stands for; the arena answers accordingly as long as neither its generations nor the
blocks of one generation outgrow a word.
-/
set_option autoImplicit false
namespace PlatformInit

namespace Fallible
variable {ε α β : Type} {f : α → Except ε β}

theorem mapM_cons_eq_ok {x : α} {xs : List α} {zs : List β} : (x :: xs).mapM f = .ok zs ↔
    ∃ y ys, f x = .ok y ∧ xs.mapM f = .ok ys ∧ zs = y :: ys := by
  rw [List.mapM_cons, bind_eq_ok]
  constructor
  · rintro ⟨y, hy, h⟩
    obtain ⟨ys, hys, h⟩ := bind_eq_ok.mp h
    cases h
    exact ⟨y, ys, hy, hys, rfl⟩
  · rintro ⟨y, ys, hy, hys, rfl⟩
    exact ⟨y, hy, bind_eq_ok.mpr ⟨ys, hys, rfl⟩⟩

theorem length_of_mapM {xs : List α} {ys : List β} (h : xs.mapM f = .ok ys) :
    ys.length = xs.length := by
  induction xs generalizing ys with
  | nil =>
    cases h
    rfl
  | cons x xs ih =>
    obtain ⟨y, ys, -, hys, rfl⟩ := mapM_cons_eq_ok.mp h
    simp [ih hys]

theorem getElem?_of_mapM {xs : List α} {ys : List β} (h : xs.mapM f = .ok ys) {i : Nat} {x : α}
    (hx : xs[i]? = some x) : ∃ y, ys[i]? = some y ∧ f x = .ok y := by
  induction xs generalizing ys i with
  | nil => simp at hx
  | cons z xs ih =>
    obtain ⟨y, ys, hy, hys, rfl⟩ := mapM_cons_eq_ok.mp h
    cases i with
    | zero =>
      cases hx
      exact ⟨y, rfl, hy⟩
    | succ i => exact ih hys hx

theorem exists_mapM_iff {xs : List α} :
    (∃ ys, xs.mapM f = .ok ys) ↔ ∀ x ∈ xs, ∃ y, f x = .ok y := by
  induction xs with
  | nil => exact ⟨fun _ => nofun, fun _ => ⟨[], rfl⟩⟩
  | cons x xs ih =>
    rw [List.forall_mem_cons, ← ih]
    constructor
    · rintro ⟨zs, h⟩
      obtain ⟨y, ys, hy, hys, -⟩ := mapM_cons_eq_ok.mp h
      exact ⟨⟨y, hy⟩, ys, hys⟩
    · rintro ⟨⟨y, hy⟩, ys, hys⟩
      exact ⟨y :: ys, mapM_cons_eq_ok.mpr ⟨y, ys, hy, hys, rfl⟩⟩

end Fallible

inductive ArenaOp where
  | insert (block : Bytes)
  | get (h : ConfigHandle)
  | modify (h : ConfigHandle) (f : Bytes → Bytes)
  | migrate (kept : List (ConfigHandle × Nat))

inductive ArenaEvent where
  | inserted (h : ConfigHandle) (block : Bytes)
  | found (h : ConfigHandle) (block : Bytes)
  | written (h : ConfigHandle) (f : Bytes → Bytes)
  | migrated (kept : List (ConfigHandle × Nat)) (handles : List ConfigHandle)
  | refused (op : ArenaOp) (e : ContextError)

/-! ### What a history tells, its newest event first -/

namespace ArenaEvent

def migrations : List ArenaEvent → Nat
  | [] => 0
  | migrated .. :: past => migrations past + 1
  | inserted .. :: past | found .. :: past | written .. :: past | refused .. :: past => migrations past

/-- The handles that were issued by the last migration and since. -/
def current : List ArenaEvent → List ConfigHandle
  | [] => []
  | inserted h _ :: past => current past ++ [h]
  | migrated _ handles :: _ => handles
  | found .. :: past | written .. :: past | refused .. :: past => current past

/-- The handles that were issued before the last migration. -/
def earlier : List ArenaEvent → List ConfigHandle
  | [] => []
  | migrated .. :: past => earlier past ++ current past
  | inserted .. :: past | found .. :: past | written .. :: past | refused .. :: past => earlier past

def issued (events : List ArenaEvent) : List ConfigHandle := earlier events ++ current events

/-- The bytes last inserted, copied or written through a handle. -/
def content? : List ArenaEvent → ConfigHandle → Option Bytes
  | [], _ => none
  | inserted new block :: past, h => if h = new then some block else content? past h
  | written target f :: past, h => if h = target then (content? past h).map f else content? past h
  | migrated kept handles :: past, h =>
    ((handles.zip kept).lookup h).bind fun k => (content? past k.1).map (·.take k.2)
  | found .. :: past, h | refused .. :: past, h => content? past h

/-- Neither the generations nor, at any time, the blocks of the current one outgrow a word. -/
structure Fits (events : List ArenaEvent) : Prop where
  generations : migrations events < UInt32.size
  blocks : ∀ past, past <:+ events → (current past).length < UInt32.size

theorem migrations_le_of_suffix {past events : List ArenaEvent} (h : past <:+ events) :
    migrations past ≤ migrations events := by
  induction events with
  | nil =>
    cases List.suffix_nil.mp h
    exact Nat.le_refl _
  | cons e events ih =>
    rcases List.suffix_cons_iff.mp h with rfl | h
    · exact Nat.le_refl _
    · have hle := ih h
      cases e <;> simp only [migrations] <;> omega

theorem Fits.of_suffix {past events : List ArenaEvent} (h : Fits events) (hpast : past <:+ events) :
    Fits past where
  generations := Nat.lt_of_le_of_lt (migrations_le_of_suffix hpast) h.generations
  blocks _ hless := h.blocks _ (hless.trans hpast)

end ArenaEvent

namespace ConfigArena

open ArenaEvent (current earlier issued content? migrations Fits)

/-! ### Runs -/

/-- What an operation does, and the arena after it. -/
def outcome (op : ArenaOp) (a : ConfigArena) : ArenaEvent × ConfigArena :=
  match op with
  | .insert block => (.inserted (a.insert block).2 block, (a.insert block).1)
  | .get h =>
    match a.get h with
    | .ok block => (.found h block, a)
    | .error e => (.refused op e, a)
  | .modify h f =>
    match a.modify h f with
    | .ok after => (.written h f, after)
    | .error e => (.refused op e, a)
  | .migrate kept =>
    match a.migrate kept with
    | .ok (after, copies) => (.migrated kept copies, after)
    | .error e => (.refused op e, a)

inductive Outcome (a : ConfigArena) : ArenaOp → ArenaEvent → ConfigArena → Prop where
  | inserted (block : Bytes) :
      Outcome a (.insert block) (.inserted (a.insert block).2 block) (a.insert block).1
  | found {h : ConfigHandle} {block : Bytes} (hget : a.get h = .ok block) :
      Outcome a (.get h) (.found h block) a
  | written {h : ConfigHandle} {f : Bytes → Bytes} {after : ConfigArena}
      (hmodify : a.modify h f = .ok after) : Outcome a (.modify h f) (.written h f) after
  | migrated {kept : List (ConfigHandle × Nat)} {copies : List ConfigHandle} {after : ConfigArena}
      (hmigrate : a.migrate kept = .ok (after, copies)) :
      Outcome a (.migrate kept) (.migrated kept copies) after
  | refused (op : ArenaOp) (e : ContextError) : Outcome a op (.refused op e) a

theorem outcome_cases (op : ArenaOp) (a : ConfigArena) : Outcome a op (outcome op a).1 (outcome op a).2 := by
  unfold outcome
  cases op with
  | insert block => exact .inserted block
  | get h =>
    dsimp only
    cases hget : a.get h with
    | ok block => exact .found hget
    | error e => exact .refused _ e
  | modify h f =>
    dsimp only
    cases hmodify : a.modify h f with
    | ok after => exact .written hmodify
    | error e => exact .refused _ e
  | migrate kept =>
    dsimp only
    cases hmigrate : a.migrate kept with
    | ok moved => exact .migrated hmigrate
    | error e => exact .refused _ e

theorem Outcome.eq_of_refused {a after : ConfigArena} {op op' : ArenaOp} {e : ContextError}
    (h : Outcome a op (.refused op' e) after) : after = a := by
  cases h
  rfl

def perform (op : ArenaOp) (n : Noted ConfigArena ArenaEvent) : Noted ConfigArena ArenaEvent :=
  ⟨(outcome op n.world).2, (outcome op n.world).1 :: n.calls⟩

def run (ops : List ArenaOp) : Noted ConfigArena ArenaEvent :=
  ops.foldl (fun n op => perform op n) ⟨empty, []⟩

theorem calls_suffix (ops : List ArenaOp) (n : Noted ConfigArena ArenaEvent) :
    n.calls <:+ (ops.foldl (fun n op => perform op n) n).calls := by
  induction ops generalizing n with
  | nil => exact List.suffix_rfl
  | cons op ops ih => exact (List.suffix_cons _ n.calls).trans (ih (perform op n))

/-! ### One operation -/

variable {a a' : ConfigArena} {h target : ConfigHandle} {block : Bytes} {f : Bytes → Bytes}
  {kept : List (ConfigHandle × Nat)} {copies : List ConfigHandle}

theorem get_eq_ok : a.get h = .ok block ↔
    h.generation = a.generation ∧ a.blocks[h.index.toNat]? = some block := by
  unfold get
  by_cases hgeneration : h.generation = a.generation
  · cases hblock : a.blocks[h.index.toNat]? <;> simp [hgeneration]
  · simp [hgeneration]

theorem toOption_get (a : ConfigArena) (h : ConfigHandle) : (a.get h).toOption =
    if h.generation = a.generation then a.blocks[h.index.toNat]? else none := by
  unfold get
  by_cases hgeneration : h.generation = a.generation
  · cases hblock : a.blocks[h.index.toNat]? <;> simp [hgeneration, Except.toOption]
  · simp [hgeneration, Except.toOption]

theorem get_eq_error {e : ContextError} (hget : a.get h = .error e) : e = .staleHandle := by
  unfold get at hget
  split at hget
  · split at hget
    · cases hget
    · cases hget
      rfl
  · cases hget
    rfl

theorem get_of_generation_ne (hne : h.generation ≠ a.generation) : a.get h = .error .staleHandle := by
  unfold get
  rw [if_neg hne]

def handles (a : ConfigArena) : List ConfigHandle :=
  (List.range a.blocks.length).map fun i => ⟨a.generation, .ofNat i⟩

theorem mem_handles (hfits : a.blocks.length ≤ UInt32.size) :
    h ∈ a.handles ↔ h.generation = a.generation ∧ h.index.toNat < a.blocks.length := by
  unfold handles
  rw [List.mem_map]
  constructor
  · rintro ⟨i, hi, rfl⟩
    have hlt := List.mem_range.mp hi
    rw [UInt32.toNat_ofNat_of_lt' (by omega)]
    exact ⟨rfl, hlt⟩
  · rintro ⟨hgeneration, hindex⟩
    refine ⟨h.index.toNat, List.mem_range.mpr hindex, ?_⟩
    rw [UInt32.ofNat_toNat, ← hgeneration]

theorem resolves_iff (hfits : a.blocks.length ≤ UInt32.size) :
    (∃ block, a.get h = .ok block) ↔ h ∈ a.handles := by
  rw [mem_handles hfits]
  constructor
  · rintro ⟨block, hget⟩
    obtain ⟨hgeneration, hblock⟩ := get_eq_ok.mp hget
    obtain ⟨hindex, -⟩ := List.getElem?_eq_some_iff.mp hblock
    exact ⟨hgeneration, hindex⟩
  · rintro ⟨hgeneration, hindex⟩
    exact ⟨_, get_eq_ok.mpr ⟨hgeneration, List.getElem?_eq_getElem hindex⟩⟩

theorem nodup_handles (hfits : a.blocks.length ≤ UInt32.size) : a.handles.Nodup := by
  unfold handles
  rw [List.Nodup, List.pairwise_map]
  refine List.nodup_range.imp_of_mem fun {i j} hi hj hne heq => ?_
  have hi := List.mem_range.mp hi
  have hj := List.mem_range.mp hj
  have hindex := congrArg (fun h => h.index.toNat) heq
  simp only [UInt32.toNat_ofNat_of_lt' (show i < UInt32.size by omega),
    UInt32.toNat_ofNat_of_lt' (show j < UInt32.size by omega)] at hindex
  exact hne hindex

theorem handles_insert (a : ConfigArena) (block : Bytes) :
    (a.insert block).1.handles = a.handles ++ [(a.insert block).2] := by
  simp [handles, insert, List.range_succ]

theorem toOption_get_insert (hfits : a.blocks.length < UInt32.size) :
    ((a.insert block).1.get h).toOption =
      if h = (a.insert block).2 then some block else (a.get h).toOption := by
  have hlast : ((.ofNat a.blocks.length : UInt32)).toNat = a.blocks.length :=
    UInt32.toNat_ofNat_of_lt' hfits
  rw [toOption_get, toOption_get]
  by_cases hnew : h = (a.insert block).2
  · rw [if_pos hnew, hnew]
    simp [insert, hlast]
  · rw [if_neg hnew]
    by_cases hgeneration : h.generation = a.generation
    · have hindex : h.index.toNat ≠ a.blocks.length := by
        intro hindex
        apply hnew
        have hword : h.index = .ofNat a.blocks.length := by rw [← hindex, UInt32.ofNat_toNat]
        cases h
        simp only at hgeneration hword
        simp [insert, hgeneration, hword]
      simp only [insert, hgeneration, if_true]
      by_cases hlt : h.index.toNat < a.blocks.length
      · exact List.getElem?_append_left hlt
      · rw [List.getElem?_eq_none (by simp; omega), List.getElem?_eq_none (by omega)]
    · simp [insert, hgeneration]

theorem get_insert (hfits : a.blocks.length < UInt32.size) :
    (a.insert block).1.get (a.insert block).2 = .ok block := by
  refine get_eq_ok.mpr ⟨rfl, ?_⟩
  change (a.blocks ++ [block])[(UInt32.ofNat a.blocks.length).toNat]? = some block
  rw [UInt32.toNat_ofNat_of_lt' hfits, List.getElem?_concat_length]

theorem modify_eq_ok : a.modify target f = .ok a' ↔ ∃ block, a.get target = .ok block ∧
    a' = { a with blocks := a.blocks.set target.index.toNat (f block) } := by
  unfold modify
  cases a.get target <;> simp [eq_comm]

theorem generation_modify (hmodify : a.modify target f = .ok a') : a'.generation = a.generation := by
  obtain ⟨block, -, rfl⟩ := modify_eq_ok.mp hmodify
  rfl

theorem handles_modify (hmodify : a.modify target f = .ok a') : a'.handles = a.handles := by
  obtain ⟨block, -, rfl⟩ := modify_eq_ok.mp hmodify
  simp [handles]

theorem get_modify (hmodify : a.modify target f = .ok a') :
    a'.get h = if h = target then (a.get h).map f else a.get h := by
  obtain ⟨block, htarget, rfl⟩ := modify_eq_ok.mp hmodify
  obtain ⟨hgeneration, hblock⟩ := get_eq_ok.mp htarget
  by_cases heq : h = target
  · subst heq
    obtain ⟨hindex, -⟩ := List.getElem?_eq_some_iff.mp hblock
    rw [if_pos rfl, htarget]
    exact get_eq_ok.mpr ⟨hgeneration, List.getElem?_set_self hindex⟩
  · rw [if_neg heq]
    by_cases hsame : h.generation = a.generation
    · have hindex : target.index.toNat ≠ h.index.toNat := by
        intro hindex
        apply heq
        have hword := UInt32.toNat_inj.mp hindex
        cases h
        cases target
        simp_all
      simp only [get, hsame, if_true, List.getElem?_set_ne hindex]
    · simp [get, hsame]

theorem keep_eq_ok {length : Nat} : a.keep h length = .ok block ↔
    ∃ old, a.get h = .ok old ∧ length ≤ old.length ∧ block = old.take length := by
  unfold keep
  cases hget : a.get h with
  | error e => simp
  | ok old =>
    by_cases hshort : old.length < length
    · simp [hshort, Nat.not_le_of_lt hshort]
    · simp [hshort, eq_comm, Nat.le_of_not_lt hshort]

theorem migrate_eq_ok : a.migrate kept = .ok (a', copies) ↔
    (kept.mapM fun k => a.keep k.1 k.2) = .ok a'.blocks ∧ a'.generation = a.generation + 1 ∧
      copies = a'.handles := by
  unfold migrate
  cases hkept : kept.mapM fun k => a.keep k.1 k.2 with
  | error e => simp
  | ok blocks =>
    simp only [Except.ok.injEq, Prod.mk.injEq]
    constructor
    · rintro ⟨rfl, rfl⟩
      exact ⟨rfl, rfl, rfl⟩
    · rintro ⟨rfl, hgeneration, rfl⟩
      cases a'
      simp only at hgeneration
      subst hgeneration
      exact ⟨rfl, rfl⟩

/-- A migration needs every kept handle to resolve to as many bytes as are kept. -/
theorem migrate_succeeds_iff : (∃ moved, a.migrate kept = .ok moved) ↔
    ∀ k ∈ kept, ∃ block, a.get k.1 = .ok block ∧ k.2 ≤ block.length := by
  have hmoved : (∃ moved, a.migrate kept = .ok moved) ↔
      ∃ blocks, (kept.mapM fun k => a.keep k.1 k.2) = .ok blocks := by
    constructor
    · rintro ⟨⟨a', copies⟩, hmigrate⟩
      exact ⟨_, (migrate_eq_ok.mp hmigrate).1⟩
    · rintro ⟨blocks, hblocks⟩
      exact ⟨(⟨a.generation + 1, blocks⟩, _), migrate_eq_ok.mpr ⟨hblocks, rfl, rfl⟩⟩
  rw [hmoved, Fallible.exists_mapM_iff]
  simp only [keep_eq_ok]
  constructor
  · intro hkeep k hk
    obtain ⟨-, old, hget, hlength, -⟩ := hkeep k hk
    exact ⟨old, hget, hlength⟩
  · intro hkeep k hk
    obtain ⟨old, hget, hlength⟩ := hkeep k hk
    exact ⟨_, old, hget, hlength, rfl⟩

theorem length_migrate (hmigrate : a.migrate kept = .ok (a', copies)) :
    a'.blocks.length = kept.length := Fallible.length_of_mapM (migrate_eq_ok.mp hmigrate).1

theorem length_copies (hmigrate : a.migrate kept = .ok (a', copies)) : copies.length = kept.length := by
  rw [(migrate_eq_ok.mp hmigrate).2.2, handles, List.length_map, List.length_range,
    length_migrate hmigrate]

theorem getElem?_migrate (hmigrate : a.migrate kept = .ok (a', copies)) {i length : Nat}
    (hkept : kept[i]? = some (h, length)) : ∃ old, a.get h = .ok old ∧ length ≤ old.length ∧
      a'.blocks[i]? = some (old.take length) := by
  obtain ⟨copy, hcopy, hkeep⟩ := Fallible.getElem?_of_mapM (migrate_eq_ok.mp hmigrate).1 hkept
  obtain ⟨old, hget, hlength, rfl⟩ := keep_eq_ok.mp hkeep
  exact ⟨old, hget, hlength, hcopy⟩

theorem getElem?_handles {i : Nat} (hi : i < a.blocks.length) :
    a.handles[i]? = some ⟨a.generation, .ofNat i⟩ := by
  simp [handles, List.getElem?_map, List.getElem?_range hi]

theorem get_migrate (hfits : kept.length ≤ UInt32.size)
    (hmigrate : a.migrate kept = .ok (a', copies)) {i length : Nat}
    (hkept : kept[i]? = some (h, length)) : ∃ new old, copies[i]? = some new ∧
      a.get h = .ok old ∧ length ≤ old.length ∧ a'.get new = .ok (old.take length) := by
  obtain ⟨hi, -⟩ := List.getElem?_eq_some_iff.mp hkept
  obtain ⟨old, hget, hlength, hcopy⟩ := getElem?_migrate hmigrate hkept
  have hplace : i < a'.blocks.length := by rwa [length_migrate hmigrate]
  refine ⟨⟨a'.generation, .ofNat i⟩, old, ?_, hget, hlength, get_eq_ok.mpr ⟨rfl, ?_⟩⟩
  · rw [(migrate_eq_ok.mp hmigrate).2.2]
    exact getElem?_handles hplace
  · rw [UInt32.toNat_ofNat_of_lt' (by omega)]
    exact hcopy

theorem lookup_zip_handles (h : ConfigHandle) (generation : UInt32) {start : Nat}
    (hfits : start + kept.length ≤ UInt32.size) :
    ((((List.range' start kept.length).map fun i => ConfigHandle.mk generation (.ofNat i)).zip
        kept).lookup h) =
      if h.generation = generation ∧ start ≤ h.index.toNat then kept[h.index.toNat - start]? else none := by
  induction kept generalizing start with
  | nil => simp
  | cons k kept ih =>
    have hstart : (.ofNat start : UInt32).toNat = start :=
      UInt32.toNat_ofNat_of_lt' (by simp at hfits; omega)
    rw [List.length_cons, List.range'_succ, List.map_cons, List.zip_cons_cons, List.lookup_cons,
      ih (by simp at hfits; omega)]
    by_cases heq : h = ⟨generation, .ofNat start⟩
    · subst heq
      simp [hstart]
    · have hindex : h.generation = generation → h.index.toNat ≠ start := by
        intro hgeneration hindex
        apply heq
        have hword : h.index = .ofNat start := by rw [← hindex, UInt32.ofNat_toNat]
        cases h
        simp_all
      simp only [beq_eq_false_iff_ne.mpr heq]
      by_cases hgeneration : h.generation = generation
      · have hne := hindex hgeneration
        by_cases hle : start ≤ h.index.toNat
        · rw [if_pos ⟨hgeneration, by omega⟩, if_pos ⟨hgeneration, hle⟩,
            show h.index.toNat - start = h.index.toNat - (start + 1) + 1 by omega,
            List.getElem?_cons_succ]
        · rw [if_neg (by omega), if_neg (by omega)]
      · simp [hgeneration]

/-- Looking a handle up among the issued ones finds what was kept at its place. -/
theorem lookup_migrate (hfits : kept.length ≤ UInt32.size)
    (hmigrate : a.migrate kept = .ok (a', copies)) : (copies.zip kept).lookup h =
      if h.generation = a'.generation then kept[h.index.toNat]? else none := by
  have hzip := lookup_zip_handles h a'.generation (show 0 + kept.length ≤ UInt32.size by omega)
  rw [(migrate_eq_ok.mp hmigrate).2.2, ConfigArena.handles, length_migrate hmigrate,
    List.range_eq_range', hzip]
  simp

/-! ### The generations of handles -/

variable {n : Noted ConfigArena ArenaEvent}

/-- What every operation keeps as long as the generations fit a word. -/
structure Dated (n : Noted ConfigArena ArenaEvent) : Prop where
  generation : n.world.generation.toNat = migrations n.calls
  now : ∀ h ∈ current n.calls, h.generation = n.world.generation
  older : ∀ h ∈ earlier n.calls, h.generation.toNat < migrations n.calls

theorem dated_start : Dated ⟨empty, []⟩ := ⟨rfl, nofun, nofun⟩

namespace Dated

theorem generation_le (hn : Dated n) (hh : h ∈ issued n.calls) :
    h.generation.toNat ≤ migrations n.calls := by
  rcases List.mem_append.mp hh with hearlier | hcurrent
  · exact Nat.le_of_lt (hn.older h hearlier)
  · rw [hn.now h hcurrent]
    exact Nat.le_of_eq hn.generation

theorem step (hn : Dated n) {op : ArenaOp} {e : ArenaEvent} (hend : Outcome n.world op e a)
    (hfits : migrations (e :: n.calls) < UInt32.size) : Dated ⟨a, e :: n.calls⟩ := by
  cases hend with
  | inserted block =>
    refine ⟨hn.generation, ?_, hn.older⟩
    intro h hh
    rcases List.mem_append.mp hh with hold | hnew
    · exact hn.now h hold
    · rw [List.mem_singleton.mp hnew]
      rfl
  | found hget => exact ⟨hn.generation, hn.now, hn.older⟩
  | written hmodify =>
    have hsame := generation_modify hmodify
    exact ⟨by rw [hsame]; exact hn.generation, by rw [hsame]; exact hn.now, hn.older⟩
  | migrated hmigrate =>
    obtain ⟨-, hgeneration, rfl⟩ := migrate_eq_ok.mp hmigrate
    refine ⟨?_, ?_, fun h hh => Nat.lt_succ_of_le (hn.generation_le hh)⟩
    · rw [hgeneration, UInt32.toNat_add, hn.generation]
      exact Nat.mod_eq_of_lt hfits
    · intro h hh
      obtain ⟨i, -, rfl⟩ := List.mem_map.mp hh
      rfl
  | refused op e => exact ⟨hn.generation, hn.now, hn.older⟩

theorem foldl (hn : Dated n) (ops : List ArenaOp)
    (hfits : migrations (ops.foldl (fun n op => perform op n) n).calls < UInt32.size) :
    Dated (ops.foldl (fun n op => perform op n) n) := by
  induction ops generalizing n with
  | nil => exact hn
  | cons op ops ih =>
    have hle := ArenaEvent.migrations_le_of_suffix (calls_suffix ops (perform op n))
    exact ih (hn.step (outcome_cases op n.world) (Nat.lt_of_le_of_lt hle hfits)) hfits

end Dated

theorem dated_run (ops : List ArenaOp) (hfits : migrations (run ops).calls < UInt32.size) :
    Dated (run ops) := dated_start.foldl ops hfits

/-! ### The arena is as its history tells -/

structure Told (n : Noted ConfigArena ArenaEvent) : Prop where
  dated : Dated n
  current : current n.calls = n.world.handles
  content : ∀ h, content? n.calls h = (n.world.get h).toOption
  fresh : (earlier n.calls).Nodup

theorem told_start : Told ⟨empty, []⟩ where
  dated := dated_start
  current := rfl
  content h := by simp [content?, toOption_get, empty]
  fresh := List.nodup_nil

namespace Told

theorem length_lt (hn : Told n) (hfits : Fits n.calls) : n.world.blocks.length < UInt32.size := by
  have hlength : (ArenaEvent.current n.calls).length = n.world.blocks.length := by
    rw [hn.current, handles, List.length_map, List.length_range]
  rw [← hlength]
  exact hfits.blocks n.calls List.suffix_rfl

theorem resolves_iff (hn : Told n) (hfits : Fits n.calls) :
    (∃ block, n.world.get h = .ok block) ↔ h ∈ ArenaEvent.current n.calls := by
  have hlt := hn.length_lt hfits
  rw [hn.current, ConfigArena.resolves_iff (by omega)]

/-- No handle is issued twice. -/
theorem nodup_issued (hn : Told n) (hfits : Fits n.calls) : (issued n.calls).Nodup := by
  have hlt := hn.length_lt hfits
  rw [issued, List.nodup_append]
  refine ⟨hn.fresh, ?_, ?_⟩
  · rw [hn.current]
    exact nodup_handles (by omega)
  · intro old hold new hnew heq
    have hless := hn.dated.older old hold
    rw [heq, hn.dated.now new hnew, hn.dated.generation] at hless
    omega

theorem insert (hn : Told n) (block : Bytes) (hfits : Fits n.calls) :
    Told ⟨(n.world.insert block).1, .inserted (n.world.insert block).2 block :: n.calls⟩ where
  dated := hn.dated.step (.inserted block) hfits.generations
  current := by
    rw [handles_insert, ← hn.current]
    rfl
  content h := by
    rw [toOption_get_insert (hn.length_lt hfits), ← hn.content]
    rfl
  fresh := hn.fresh

theorem modify (hn : Told n) (hmodify : n.world.modify target f = .ok a) (hfits : Fits n.calls) :
    Told ⟨a, .written target f :: n.calls⟩ where
  dated := hn.dated.step (.written hmodify) hfits.generations
  current := by
    rw [handles_modify hmodify, ← hn.current]
    rfl
  content h := by
    rw [content?, hn.content, get_modify hmodify]
    by_cases heq : h = target
    · rw [if_pos heq, if_pos heq]
      cases n.world.get h <;> rfl
    · rw [if_neg heq, if_neg heq]
  fresh := hn.fresh

theorem migrate (hn : Told n) (hmigrate : n.world.migrate kept = .ok (a, copies))
    (hfits : Fits (.migrated kept copies :: n.calls)) :
    Told ⟨a, .migrated kept copies :: n.calls⟩ where
  dated := hn.dated.step (.migrated hmigrate) hfits.generations
  current := (migrate_eq_ok.mp hmigrate).2.2
  content h := by
    have hlength := length_migrate hmigrate
    have hblocks : a.blocks.length < UInt32.size := by
      have hcurrent := hfits.blocks _ List.suffix_rfl
      rw [(migrate_eq_ok.mp hmigrate).2.2] at hcurrent
      simpa [ArenaEvent.current, handles] using hcurrent
    rw [content?, lookup_migrate (by omega) hmigrate, toOption_get]
    by_cases hsame : h.generation = a.generation
    · rw [if_pos hsame, if_pos hsame]
      cases hkept : kept[h.index.toNat]? with
      | none =>
        have hnone : a.blocks[h.index.toNat]? = none := by
          rw [List.getElem?_eq_none_iff, hlength]
          exact List.getElem?_eq_none_iff.mp hkept
        rw [hnone]
        rfl
      | some k =>
        obtain ⟨old, hget, -, hcopy⟩ := getElem?_migrate hmigrate hkept
        rw [hcopy, Option.bind_some, hn.content, hget]
        rfl
    · rw [if_neg hsame, if_neg hsame]
      rfl
  fresh := hn.nodup_issued (hfits.of_suffix (List.suffix_cons _ _))

theorem step (hn : Told n) {op : ArenaOp} {e : ArenaEvent} (hend : Outcome n.world op e a)
    (hfits : Fits (e :: n.calls)) : Told ⟨a, e :: n.calls⟩ := by
  have hpast := hfits.of_suffix (List.suffix_cons _ _)
  have hdated := hn.dated.step hend hfits.generations
  cases hend with
  | inserted block => exact hn.insert block hpast
  | found hget => exact ⟨hdated, hn.current, hn.content, hn.fresh⟩
  | written hmodify => exact hn.modify hmodify hpast
  | migrated hmigrate => exact hn.migrate hmigrate hfits
  | refused op e => exact ⟨hdated, hn.current, hn.content, hn.fresh⟩

theorem foldl (hn : Told n) (ops : List ArenaOp)
    (hfits : Fits (ops.foldl (fun n op => perform op n) n).calls) :
    Told (ops.foldl (fun n op => perform op n) n) := by
  induction ops generalizing n with
  | nil => exact hn
  | cons op ops ih =>
    apply ih _ hfits
    exact hn.step (outcome_cases op n.world) (hfits.of_suffix (calls_suffix ops (perform op n)))

theorem index_ne (hn : Told n) {other : ConfigHandle} (hh : h ∈ ArenaEvent.current n.calls)
    (hother : other ∈ ArenaEvent.current n.calls) (hne : other ≠ h) : other.index ≠ h.index := by
  intro hindex
  apply hne
  have hsame : other.generation = h.generation := by rw [hn.dated.now h hh, hn.dated.now other hother]
  cases h
  cases other
  simp_all

end Told

theorem told_run (ops : List ArenaOp) (hfits : Fits (run ops).calls) : Told (run ops) :=
  told_start.foldl ops hfits

/-- The arena gives access to what its history tells, and to nothing else. -/
structure Faithful (n : Noted ConfigArena ArenaEvent) : Prop where
  resolves : ∀ h ∈ current n.calls, ∃ block, n.world.get h = .ok block
  stale : ∀ h ∈ earlier n.calls, n.world.get h = .error .staleHandle
  yields : ∀ h block, n.world.get h = .ok block ↔ content? n.calls h = some block
  fresh : (issued n.calls).Nodup
  /-- No two handles share a block: a write through one is not seen through another. -/
  apart : ∀ h ∈ current n.calls, ∀ other ∈ current n.calls, other ≠ h → other.index ≠ h.index ∧
    ∀ f a, n.world.modify h f = .ok a → a.get other = n.world.get other
  migratable : ∀ kept, (∃ moved, n.world.migrate kept = .ok moved) ↔
    ∀ k ∈ kept, ∃ block, n.world.get k.1 = .ok block ∧ k.2 ≤ block.length
  /-- A migration issues a new handle for each kept block, in order, even if one is kept twice. -/
  migrated : ∀ (kept : List (ConfigHandle × Nat)) a copies, kept.length < UInt32.size →
    n.world.migrate kept = .ok (a, copies) → copies.length = kept.length ∧ copies.Nodup ∧
      ∀ (i : Nat) (h : ConfigHandle) (length : Nat), kept[i]? = some (h, length) →
        ∃ new old, copies[i]? = some new ∧ n.world.get h = .ok old ∧ length ≤ old.length ∧
          a.get new = .ok (old.take length)
  refuses : ∀ op e, (perform op n).calls = .refused op e :: n.calls → (perform op n).world = n.world

/-- Whatever is done with an arena, in whatever order: it gives access to what its history tells. -/
theorem run_faithful (ops : List ArenaOp) (hfits : Fits (run ops).calls) : Faithful (run ops) := by
  have hn := told_run ops hfits
  have hlt := hn.length_lt hfits
  constructor
  · intro h hh
    exact (hn.resolves_iff hfits).mpr hh
  · intro h hh
    apply get_of_generation_ne
    intro hsame
    have hless := hn.dated.older h hh
    rw [hsame, hn.dated.generation] at hless
    omega
  · intro h block
    rw [hn.content]
    cases (run ops).world.get h <;> simp [Except.toOption]
  · exact hn.nodup_issued hfits
  · intro h hh other hother hne
    refine ⟨hn.index_ne hh hother hne, ?_⟩
    intro f a hmodify
    rw [get_modify hmodify, if_neg hne]
  · exact fun kept => migrate_succeeds_iff
  · intro kept a copies hkept hmigrate
    have hlength := length_migrate hmigrate
    refine ⟨length_copies hmigrate, ?_, fun i h length hi => get_migrate (by omega) hmigrate hi⟩
    rw [(migrate_eq_ok.mp hmigrate).2.2]
    exact nodup_handles (by omega)
  · intro op e hrefused
    have hend := outcome_cases op (run ops).world
    rw [(List.cons.inj hrefused).1] at hend
    exact hend.eq_of_refused

def keptTwice : List ArenaOp :=
  [.insert [1, 2, 3, 4], .insert [5, 6], .modify ⟨0, 0⟩ (·.set 0 9),
    .migrate [(⟨0, 0⟩, 3), (⟨0, 0⟩, 2)], .migrate [(⟨0, 1⟩, 2)], .modify ⟨1, 0⟩ (·.set 1 7),
    .migrate [(⟨1, 0⟩, 3), (⟨1, 1⟩, 3)], .get ⟨1, 2⟩]

theorem run_faithful_kept_twice : Fits (run keptTwice).calls ∧
    issued (run keptTwice).calls = [⟨0, 0⟩, ⟨0, 1⟩, ⟨1, 0⟩, ⟨1, 1⟩] ∧
    (run keptTwice).world.get ⟨1, 0⟩ = .ok [9, 7, 3] ∧
    (run keptTwice).world.get ⟨1, 1⟩ = .ok [9, 2] ∧
    (run keptTwice).world.get ⟨0, 0⟩ = .error .staleHandle := by
  have hfits : Fits (run keptTwice).calls := by
    refine ⟨by decide, ?_⟩
    intro past hpast
    change past <:+ [_, _, _, _, _, _, _, _] at hpast
    simp only [List.suffix_cons_iff, List.suffix_nil] at hpast
    obtain rfl | rfl | rfl | rfl | rfl | rfl | rfl | rfl | rfl := hpast <;> decide
  have hfaithful := run_faithful keptTwice hfits
  refine ⟨hfits, by decide, ?_, ?_, ?_⟩
  · exact (hfaithful.yields _ _).mpr (by decide)
  · exact (hfaithful.yields _ _).mpr (by decide)
  · exact hfaithful.stale _ (by decide)

end ConfigArena
end PlatformInit
