import Mathlib.Data.Int.Notation
import Mathlib.Data.List.Nodup
import Mathlib.Data.Option.Basic
import Mathlib.Tactic.SplitIfs

/-!
# JSON codecs

A type that is written as JSON and read back, in two layers: its values as JSON values, and JSON
values as text. The JSON values are syntax: an object is the list of its entries, in the order in
which they are written and with repetitions.

* `Codec` — how a type is written and read, with the law that what is written is read back.
* `Source` — a value is read from the text, or from a buffer where its type comes after it.
* `namedFieldsOf`, `Fields`, `named` — the fields of an object: in any order, with others between
  them, and each at most once. To `fieldsOf` and `record` an array gives them by position as well.
* `adjacent` — a tag and a content, each a field. A content before its tag is read from a buffer.
* `TextForm` — a type with a text form, JSON values among them.

Nothing here names a program: types, names and texts are arbitrary.
-/

namespace JsonCodec

/-- A JSON value. A number that is no integer is kept as its text. -/
inductive Value
  | null
  | bool (b : Bool)
  | int (i : ℤ)
  | float (text : String)
  | str (s : String)
  | arr (items : List Value)
  | obj (entries : List (String × Value))

mutual

def Value.same : Value → Value → Bool
  | .null, .null => true
  | .bool a, .bool b => a = b
  | .int a, .int b => a = b
  | .float a, .float b => a = b
  | .str a, .str b => a = b
  | .arr as, .arr bs => sameItems as bs
  | .obj as, .obj bs => sameEntries as bs
  | _, _ => false

def Value.sameItems : List Value → List Value → Bool
  | [], [] => true
  | a :: as, b :: bs => a.same b && sameItems as bs
  | _, _ => false

def Value.sameEntries : List (String × Value) → List (String × Value) → Bool
  | [], [] => true
  | (k, a) :: as, (k', b) :: bs => k = k' && (a.same b && sameEntries as bs)
  | _, _ => false

end

mutual

theorem Value.same_iff (a b : Value) : a.same b ↔ a = b := by
  cases a <;> cases b <;> simp [Value.same]
  · exact Value.sameItems_iff _ _
  · exact Value.sameEntries_iff _ _

theorem Value.sameItems_iff (as bs : List Value) : Value.sameItems as bs ↔ as = bs := by
  cases as with
  | nil => cases bs <;> simp [Value.sameItems]
  | cons a as =>
    cases bs with
    | nil => simp [Value.sameItems]
    | cons b bs => simp [Value.sameItems, Value.same_iff a b, Value.sameItems_iff as bs]

theorem Value.sameEntries_iff (as bs : List (String × Value)) :
    Value.sameEntries as bs ↔ as = bs := by
  cases as with
  | nil => cases bs <;> simp [Value.sameEntries]
  | cons a as =>
    cases bs with
    | nil => simp [Value.sameEntries]
    | cons b bs =>
      obtain ⟨k, a⟩ := a
      obtain ⟨k', b⟩ := b
      simp [Value.sameEntries, Value.same_iff a b, Value.sameEntries_iff as bs, and_assoc]

end

instance : DecidableEq Value := fun a b => decidable_of_iff _ (Value.same_iff a b)

/-- A text form, for the values that have one. -/
structure TextForm (α : Type*) where
  toString : α → String
  parse : String → Option α
  valid : α → Bool
  parse_toString : ∀ a, valid a → parse (toString a) = some a

/-- The text form of the values of a table. -/
def TextForm.table {α : Type*} [DecidableEq α] (entries : List (α × String))
    (h : (entries.map Prod.snd).Nodup) : TextForm α where
  toString a := ((entries.find? fun e => e.1 = a).map Prod.snd).getD ""
  parse text := (entries.find? fun e => e.2 = text).map Prod.fst
  valid a := entries.any fun e => e.1 = a
  parse_toString a ha := by
    induction entries with
    | nil => cases ha
    | cons e entries ih =>
      obtain ⟨hnotin, hnodup⟩ := List.nodup_cons.1 h
      by_cases he : e.1 = a
      · simp [he]
      · have hrest : (entries.any fun e => e.1 = a) = true := by simpa [he] using ha
        have hne : e.2 ≠ ((entries.find? fun e => e.1 = a).map Prod.snd).getD "" := by
          obtain ⟨f, hf, hfa⟩ := List.any_eq_true.1 hrest
          have hsome : (entries.find? fun e => e.1 = a).isSome :=
            List.find?_isSome.2 ⟨f, hf, hfa⟩
          obtain ⟨g, hg⟩ := Option.isSome_iff_exists.1 hsome
          rw [hg]
          exact fun heq => hnotin (heq ▸ List.mem_map_of_mem (List.mem_of_find?_eq_some hg))
        have htext := ih hnodup hrest
        simpa [he, hne] using htext

/-- How the values of a type are written and read. -/
structure Codec (α : Type*) where
  encode : α → Value
  decode : Value → Option α
  /-- The values that can be written. -/
  valid : α → Bool
  decode_encode : ∀ a, valid a → decode (encode a) = some a

variable {α β : Type*}

/-- Where a value is read from: the text, or a buffer that keeps it until its type is known. -/
inductive Source
  | text
  | buffer
  deriving DecidableEq

/-- The name of a variant without content: a string, or the only name of an object, with null. In a
buffer an empty object does as well as null. -/
def Value.unitName (source : Source) : Value → Option String
  | .str name => some name
  | .obj [(name, .null)] => some name
  | .obj [(name, .obj [])] => if source = .buffer then some name else none
  | _ => none

/-! ## Fields of an object -/

/-- The entry of a name: `none` if there are several, `some none` if there is none. -/
def entry (entries : List (String × Value)) (name : String) : Option (Option Value) :=
  match entries.filter fun e => e.1 = name with
  | [] => some none
  | [e] => some (some e.2)
  | _ => none

/-- What a reader finds that takes these fields by name. -/
def namedFieldsOf (names : List String) : Value → Option (List (Option Value))
  | .obj entries => names.mapM (entry entries)
  | _ => none

/-- What a reader finds that takes them by name or by position. -/
def fieldsOf (names : List String) : Value → Option (List (Option Value))
  | .arr items => if items.length = names.length then some (items.map some) else none
  | v => namedFieldsOf names v

theorem entry_perm {es es' : List (String × Value)} (h : es.Perm es') (name : String) :
    entry es name = entry es' name := by
  have hperm := h.filter fun e => e.1 = name
  unfold entry
  generalize es.filter (fun e => e.1 = name) = xs at hperm
  generalize es'.filter (fun e => e.1 = name) = ys at hperm
  -- Both lists are empty, or the same one entry, or have several.
  cases xs with
  | nil => rw [hperm.nil_eq]
  | cons e xs =>
    cases xs with
    | nil => rw [List.singleton_perm.1 hperm]
    | cons e' xs =>
      cases ys with
      | nil => cases hperm.eq_nil
      | cons y ys =>
        cases ys with
        | nil => cases List.perm_singleton.1 hperm
        | cons y' ys => rfl

theorem entry_cons_of_ne {es : List (String × Value)} {e : String × Value} {name : String}
    (h : e.1 ≠ name) : entry (e :: es) name = entry es name := by
  rw [entry, entry, List.filter_cons_of_neg (by simpa using h)]

theorem entry_cons_self {es : List (String × Value)} {e : String × Value}
    (h : ∀ e' ∈ es, e'.1 ≠ e.1) : entry (e :: es) e.1 = some (some e.2) := by
  rw [entry, List.filter_cons_of_pos (by simp), List.filter_eq_nil_iff.2]
  intro e' he'
  simpa using h e' he'

theorem namedFieldsOf_congr {names : List String} {es es' : List (String × Value)}
    (h : ∀ name ∈ names, entry es name = entry es' name) :
    namedFieldsOf names (.obj es) = namedFieldsOf names (.obj es') := by
  simp only [namedFieldsOf]
  induction names with
  | nil => rfl
  | cons name names ih =>
    rw [List.mapM_cons, List.mapM_cons, h name List.mem_cons_self,
      ih fun n hn => h n (List.mem_cons_of_mem _ hn)]

theorem namedFieldsOf_zip {names : List String} (hnodup : names.Nodup) {values : List Value}
    (hlength : values.length = names.length) :
    namedFieldsOf names (.obj (names.zip values)) = some (values.map some) := by
  induction names generalizing values with
  | nil =>
    rw [List.length_eq_zero_iff.1 hlength]
    rfl
  | cons name names ih =>
    cases values with
    | nil => cases hlength
    | cons value values =>
      obtain ⟨hname, hnodup⟩ := List.nodup_cons.1 hnodup
      have hrest := ih hnodup (Nat.succ.inj hlength)
      have hself : entry ((name, value) :: names.zip values) name = some (some value) :=
        entry_cons_self fun e he (heq : e.1 = name) => hname (heq ▸ (List.of_mem_zip he).1)
      have hother : namedFieldsOf names (.obj ((name, value) :: names.zip values)) =
          namedFieldsOf names (.obj (names.zip values)) :=
        namedFieldsOf_congr fun n hn => entry_cons_of_ne fun (heq : name = n) => hname (heq ▸ hn)
      rw [hrest] at hother
      simp only [namedFieldsOf] at hother ⊢
      rw [List.zip_cons_cons, List.mapM_cons, hself, hother]
      rfl

theorem entry_append_of_forall_ne {es rest : List (String × Value)} {name : String}
    (h : ∀ e ∈ rest, e.1 ≠ name) : entry (es ++ rest) name = entry es name := by
  have hnone : (rest.filter fun e => e.1 = name) = [] :=
    List.filter_eq_nil_iff.2 fun e he => by simpa using h e he
  rw [entry, entry, List.filter_append, hnone, List.append_nil]

theorem entry_eq_some_some_iff {es : List (String × Value)} {name : String} {v : Value} :
    entry es name = some (some v) ↔ (es.filter fun e => e.1 = name) = [(name, v)] := by
  unfold entry
  have hname : ∀ e ∈ es.filter fun e => e.1 = name, e.1 = name := fun e he => by
    simpa using (List.mem_filter.1 he).2
  generalize es.filter (fun e => e.1 = name) = found at hname
  match found with
  | [] => simp
  | [e] =>
    have he := hname e List.mem_cons_self
    constructor
    · intro h
      rw [← Option.some.inj (Option.some.inj h), ← he]
    · intro h
      rw [List.cons.inj h |>.1]
  | e :: e' :: found => simp

/-- The only entry of a name, and where it stands. -/
theorem entry_eq_some_some_iff_split {es : List (String × Value)} {name : String} {v : Value} :
    entry es name = some (some v) ↔
      ∃ pre post, es = pre ++ (name, v) :: post ∧ ∀ e ∈ pre ++ post, e.1 ≠ name := by
  rw [entry_eq_some_some_iff]
  constructor
  · intro h
    obtain ⟨pre, post, rfl, hpre, -, hpost⟩ := List.filter_eq_cons_iff.1 h
    rw [List.filter_eq_nil_iff] at hpost
    refine ⟨pre, post, rfl, fun e he => ?_⟩
    rcases List.mem_append.1 he with he | he
    · simpa using hpre e he
    · simpa using hpost e he
  · rintro ⟨pre, post, rfl, hothers⟩
    refine List.filter_eq_cons_iff.2 ⟨pre, post, rfl, fun e he => ?_, by simp, ?_⟩
    · simpa using hothers e (List.mem_append_left _ he)
    · rw [List.filter_eq_nil_iff]
      intro e he
      simpa using hothers e (List.mem_append_right _ he)

theorem exists_split_of_entries {es : List (String × Value)} {name name' : String} {v v' : Value}
    (hne : name ≠ name') (h : entry es name = some (some v))
    (h' : entry es name' = some (some v')) :
    (∃ pre mid post, es = pre ++ (name, v) :: (mid ++ (name', v') :: post) ∧
      ∀ e ∈ pre ++ (mid ++ post), e.1 ≠ name ∧ e.1 ≠ name') ∨
    ∃ pre mid post, es = pre ++ (name', v') :: (mid ++ (name, v) :: post) ∧
      ∀ e ∈ pre ++ (mid ++ post), e.1 ≠ name ∧ e.1 ≠ name' := by
  obtain ⟨pre, post, rfl, hothers⟩ := entry_eq_some_some_iff_split.1 h
  obtain ⟨pre', post', hsplit, hothers'⟩ := entry_eq_some_some_iff_split.1 h'
  rcases List.append_eq_append_iff.1 hsplit with ⟨mid, rfl, hmid⟩ | ⟨mid, rfl, hmid⟩
  · cases mid with
    | nil => exact absurd (congrArg Prod.fst (List.cons.inj hmid).1) hne
    | cons e mid =>
      obtain ⟨rfl, rfl⟩ := List.cons.inj hmid
      refine .inl ⟨pre, mid, post', rfl, fun e he => ?_⟩
      simp only [List.append_eq, List.mem_append, List.mem_cons] at he hothers hothers'
      exact ⟨hothers e (by tauto), hothers' e (by tauto)⟩
  · cases mid with
    | nil => exact absurd (congrArg Prod.fst (List.cons.inj hmid).1).symm hne
    | cons e mid =>
      obtain ⟨rfl, rfl⟩ := List.cons.inj hmid
      refine .inr ⟨pre', mid, post, by simp, fun e he => ?_⟩
      simp only [List.append_eq, List.mem_append, List.mem_cons] at he hothers hothers'
      exact ⟨hothers e (by tauto), hothers' e (by tauto)⟩

theorem entries_of_split {pre mid post : List (String × Value)} {name name' : String}
    {v w : Value} (hne : name ≠ name')
    (hothers : ∀ e ∈ pre ++ (mid ++ post), e.1 ≠ name ∧ e.1 ≠ name') :
    entry (pre ++ (name, v) :: (mid ++ (name', w) :: post)) name = some (some v) ∧
      entry (pre ++ (name, v) :: (mid ++ (name', w) :: post)) name' = some (some w) := by
  rw [entry_eq_some_some_iff_split, entry_eq_some_some_iff_split]
  simp only [List.mem_append] at hothers
  refine ⟨⟨pre, _, rfl, fun e he => ?_⟩, ⟨pre ++ (name, v) :: mid, post, by simp, fun e he => ?_⟩⟩
  · simp only [List.mem_append, List.mem_cons] at he
    rcases he with he | he | rfl | he
    · exact (hothers e (.inl he)).1
    · exact (hothers e (.inr (.inl he))).1
    · exact hne.symm
    · exact (hothers e (.inr (.inr he))).1
  · simp only [List.mem_append, List.mem_cons] at he
    rcases he with (he | rfl | he) | he
    · exact (hothers e (.inl he)).2
    · exact hne
    · exact (hothers e (.inr (.inl he))).2
    · exact (hothers e (.inr (.inr he))).2

/-- An object holds values under the names: in any order, and with other entries between. -/
inductive Holds (names : List String) : Value → List Value → Prop
  | obj {es rest : List (String × Value)} {values : List Value}
    (hlength : values.length = names.length) (hrest : ∀ e ∈ rest, e.1 ∉ names)
    (hperm : es.Perm (names.zip values ++ rest)) : Holds names (.obj es) values

theorem Holds.length_eq {names : List String} {v : Value} {values : List Value}
    (h : Holds names v values) : values.length = names.length := by
  cases h with
  | obj hlength => exact hlength

theorem entry_filter_ne (es : List (String × Value)) {name n : String} (h : n ≠ name) :
    entry (es.filter fun e => !decide (e.1 = name)) n = entry es n := by
  have hfilter : ((es.filter fun e => !decide (e.1 = name)).filter fun e => e.1 = n) =
      es.filter fun e => e.1 = n := by
    rw [List.filter_filter]
    refine List.filter_congr fun e _ => ?_
    by_cases he : e.1 = n <;> simp [he, h]
  rw [entry, entry, hfilter]

theorem holds_of_mapM_entry {names : List String} (hnodup : names.Nodup)
    {es : List (String × Value)} {values : List Value}
    (h : names.mapM (entry es) = some (values.map some)) :
    Holds names (.obj es) values := by
  induction names generalizing es values with
  | nil =>
    obtain rfl : values = [] := by simpa using h
    exact .obj rfl (fun e _ => List.not_mem_nil) (List.Perm.refl es)
  | cons name names ih =>
    obtain ⟨hname, hnodup⟩ := List.nodup_cons.1 hnodup
    rw [List.mapM_cons] at h
    obtain ⟨found, hfound, h⟩ := Option.bind_eq_some_iff.1 h
    obtain ⟨founds, hfounds, h⟩ := Option.bind_eq_some_iff.1 h
    cases values with
    | nil => cases h
    | cons value values =>
      obtain ⟨rfl, rfl⟩ := List.cons.inj (Option.some.inj h)
      -- Without its entry for the first name, the object has the other names as before.
      have hothers : namedFieldsOf names (.obj (es.filter fun e => !decide (e.1 = name))) =
          namedFieldsOf names (.obj es) :=
        namedFieldsOf_congr fun n hn => entry_filter_ne es fun heq => hname (heq ▸ hn)
      have hholds := ih hnodup (hothers.trans hfounds)
      generalize hes' : (es.filter fun e => !decide (e.1 = name)) = es' at hholds
      cases hholds with
      | @obj _ rest _ hlength hrest hperm =>
        have hsplit : es.Perm ((name, value) :: es') := by
          rw [← hes', ← List.singleton_append, ← entry_eq_some_some_iff.1 hfound]
          exact (List.filter_append_perm (fun e => decide (e.1 = name)) es).symm
        refine .obj (congrArg (· + 1) hlength) (fun e he hmem => ?_)
          (hsplit.trans (hperm.cons (name, value)))
        rcases List.mem_cons.1 hmem with heq | hmem
        · have hin : e ∈ es' := hperm.symm.subset (List.mem_append_right _ he)
          rw [← hes'] at hin
          simpa [heq] using (List.mem_filter.1 hin).2
        · exact hrest e he hmem

/-- **What a reader finds** if every field is there. -/
theorem namedFieldsOf_eq_map_some_iff {names : List String} (hnodup : names.Nodup) {v : Value}
    {values : List Value} :
    namedFieldsOf names v = some (values.map some) ↔ Holds names v values := by
  constructor
  · intro h
    cases v with
    | obj es => exact holds_of_mapM_entry hnodup h
    | _ => cases h
  · intro h
    cases h with
    | obj hlength hrest hperm =>
      rw [← namedFieldsOf_zip hnodup hlength]
      refine namedFieldsOf_congr fun name hname => ?_
      rw [entry_perm hperm name, entry_append_of_forall_ne fun e he heq => hrest e he (heq ▸ hname)]

/-! ## Plain types -/

namespace Codec

def string : Codec String where
  encode s := .str s
  decode
    | .str s => some s
    | _ => none
  valid _ := true
  decode_encode _ _ := rfl

/-- Integers between two bounds. -/
def int (lo hi : ℤ) : Codec ℤ where
  encode i := .int i
  decode
    | .int i => if lo ≤ i ∧ i ≤ hi then some i else none
    | _ => none
  valid i := lo ≤ i ∧ i ≤ hi
  decode_encode _ h := if_pos (of_decide_eq_true h)

/-- A type that is written as a string. -/
def text (form : TextForm α) : Codec α where
  encode a := .str (form.toString a)
  decode
    | .str s => form.parse s
    | _ => none
  valid := form.valid
  decode_encode := form.parse_toString

/-- Variants without content. -/
def unit (source : Source) (toName : α → String) (ofName : String → Option α)
    (h : ∀ a, ofName (toName a) = some a) : Codec α where
  encode a := .str (toName a)
  decode v := (v.unitName source).bind ofName
  valid _ := true
  decode_encode a _ := h a

/-- A type that is as good as another one. -/
def map (c : Codec α) (ofRead : α → β) (toWrite : β → α) (h : ∀ b, ofRead (toWrite b) = b) :
    Codec β where
  encode b := c.encode (toWrite b)
  decode v := (c.decode v).map ofRead
  valid b := c.valid (toWrite b)
  decode_encode b hb := by
    rw [c.decode_encode _ hb, Option.map_some, h]

/-- Null, or a value that is never written as null. -/
def decodeOption (c : Codec α) : Value → Option (Option α)
  | .null => some none
  | v => (c.decode v).map some

theorem decodeOption_of_ne (c : Codec α) {v : Value} (h : v ≠ .null) :
    c.decodeOption v = (c.decode v).map some := by
  cases v with
  | null => exact absurd rfl h
  | _ => rfl

def list (c : Codec α) : Codec (List α) where
  encode as := .arr (as.map c.encode)
  decode
    | .arr items => items.mapM c.decode
    | _ => none
  valid as := as.all c.valid
  decode_encode as has := by
    dsimp only
    induction as with
    | nil => rfl
    | cons a as ih =>
      rw [List.all_cons, Bool.and_eq_true] at has
      rw [List.map_cons, List.mapM_cons, c.decode_encode a has.1, ih has.2]
      rfl

end Codec

/-! ## Records -/

/-- Some fields of a record: their names, what is written under each, and how what a reader found is
read. -/
structure Fields (α : Type*) where
  names : List String
  encode : α → List Value
  decode : List (Option Value) → Option α
  valid : α → Bool
  length_encode : ∀ a, (encode a).length = names.length
  decode_encode : ∀ a, valid a → decode ((encode a).map some) = some a

namespace Fields

/-- A field that must be there. -/
def one (name : String) (c : Codec α) : Fields α where
  names := [name]
  encode a := [c.encode a]
  decode
    | [some v] => c.decode v
    | _ => none
  valid := c.valid
  length_encode _ := rfl
  decode_encode := c.decode_encode

theorem nodup_one (name : String) (c : Codec α) : (one name c).names.Nodup :=
  List.nodup_singleton name

/-- A field that may be missing or null. -/
def optional (name : String) (c : Codec α) (h : ∀ a, c.encode a ≠ .null) : Fields (Option α) where
  names := [name]
  encode
    | none => [.null]
    | some a => [c.encode a]
  decode
    | [none] => some none
    | [some v] => c.decodeOption v
    | _ => none
  valid o := o.all c.valid
  length_encode o := by cases o <;> rfl
  decode_encode o ho := by
    cases o with
    | none => rfl
    | some a => exact (c.decodeOption_of_ne (h a)).trans (by rw [c.decode_encode a ho]; rfl)

/-- Fields, and more of them. -/
def and (f : Fields α) (g : Fields β) : Fields (α × β) where
  names := f.names ++ g.names
  encode p := f.encode p.1 ++ g.encode p.2
  decode found := (f.decode (found.take f.names.length)).bind fun a =>
    (g.decode (found.drop f.names.length)).map fun b => (a, b)
  valid p := f.valid p.1 && g.valid p.2
  length_encode p := by
    rw [List.length_append, List.length_append, f.length_encode, g.length_encode]
  decode_encode p hp := by
    obtain ⟨a, b⟩ := p
    rw [Bool.and_eq_true] at hp
    have hlength : ((f.encode a).map some).length = f.names.length := by
      rw [List.length_map, f.length_encode]
    rw [List.map_append, List.take_left' hlength, List.drop_left' hlength, f.decode_encode a hp.1,
      g.decode_encode b hp.2]
    rfl

/-- No field may be missing. -/
def Strict (f : Fields α) : Prop :=
  ∀ found a, f.decode found = some a → ∃ values : List Value, found = values.map some

theorem strict_one (name : String) (c : Codec α) : (one name c).Strict := by
  intro found a h
  simp only [one] at h
  split at h
  · next v => exact ⟨[v], rfl⟩
  · cases h

theorem Strict.and {f : Fields α} {g : Fields β} (hf : f.Strict) (hg : g.Strict) :
    (f.and g).Strict := by
  intro found p h
  obtain ⟨a, ha, h⟩ := Option.bind_eq_some_iff.1 h
  obtain ⟨b, hb, rfl⟩ := Option.map_eq_some_iff.1 h
  obtain ⟨vs, hvs⟩ := hf _ a ha
  obtain ⟨ws, hws⟩ := hg _ b hb
  refine ⟨vs ++ ws, ?_⟩
  rw [List.map_append, ← hvs, ← hws, List.take_append_drop]

end Fields

/-- An object with these fields, in this order. It is read by name only. -/
def named (f : Fields α) (h : f.names.Nodup) : Codec α where
  encode a := .obj (f.names.zip (f.encode a))
  decode v := (namedFieldsOf f.names v).bind f.decode
  valid := f.valid
  decode_encode a ha := by
    rw [namedFieldsOf_zip h (f.length_encode a)]
    exact f.decode_encode a ha

/-- An object with these fields, in this order. It is read by name or by position. -/
def record (f : Fields α) (h : f.names.Nodup) : Codec α where
  encode a := .obj (f.names.zip (f.encode a))
  decode v := (fieldsOf f.names v).bind f.decode
  valid := f.valid
  decode_encode := (named f h).decode_encode

theorem named_decode_iff {f : Fields α} {h : f.names.Nodup} (hstrict : f.Strict) {v : Value}
    {a : α} : (named f h).decode v = some a ↔
      ∃ values, Holds f.names v values ∧ f.decode (values.map some) = some a := by
  constructor
  · intro hdecode
    obtain ⟨found, hfound, ha⟩ := Option.bind_eq_some_iff.1 hdecode
    obtain ⟨values, rfl⟩ := hstrict found a ha
    exact ⟨values, (namedFieldsOf_eq_map_some_iff h).1 hfound, ha⟩
  · rintro ⟨values, hholds, ha⟩
    exact Option.bind_eq_some_iff.2 ⟨_, (namedFieldsOf_eq_map_some_iff h).2 hholds, ha⟩

theorem named_one_decode_iff {name : String} {c : Codec α} {h : (Fields.one name c).names.Nodup}
    {v : Value} {a : α} : (named (.one name c) h).decode v = some a ↔
      ∃ x, Holds [name] v [x] ∧ c.decode x = some a := by
  rw [named_decode_iff (Fields.strict_one name c)]
  constructor
  · rintro ⟨values, hholds, ha⟩
    match values with
    | [x] => exact ⟨x, hholds, ha⟩
    | [] | _ :: _ :: _ => cases hholds.length_eq
  · rintro ⟨x, hholds, ha⟩
    exact ⟨[x], hholds, ha⟩

theorem named_two_decode_iff {name name' : String} {c : Codec α} {c' : Codec β}
    {h : ((Fields.one name c).and (.one name' c')).names.Nodup} {v : Value} {a : α} {b : β} :
    (named ((Fields.one name c).and (.one name' c')) h).decode v = some (a, b) ↔
      ∃ x y, Holds [name, name'] v [x, y] ∧ c.decode x = some a ∧ c'.decode y = some b := by
  rw [named_decode_iff ((Fields.strict_one name c).and (Fields.strict_one name' c'))]
  constructor
  · rintro ⟨values, hholds, hdecode⟩
    match values with
    | [x, y] =>
      obtain ⟨a', ha, hdecode⟩ := Option.bind_eq_some_iff.1 hdecode
      obtain ⟨b', hb, heq⟩ := Option.map_eq_some_iff.1 hdecode
      obtain ⟨rfl, rfl⟩ := Prod.mk.inj heq
      exact ⟨x, y, hholds, ha, hb⟩
    | [] | [_] | _ :: _ :: _ :: _ => cases hholds.length_eq
  · rintro ⟨x, y, hholds, ha, hb⟩
    refine ⟨[x, y], hholds, ?_⟩
    exact Option.bind_eq_some_iff.2 ⟨a, ha, Option.map_eq_some_iff.2 ⟨b, hb, rfl⟩⟩

/-! ## Variants -/

/-- The variants of a type: the name of each, and what is written for it. -/
structure Variants (α : Type*) where
  encode : α → String × Value
  decode : Source → String → Value → Option α
  valid : α → Bool
  decode_encode : ∀ source a, valid a → decode source (encode a).1 (encode a).2 = some a

/-- A content that stands before the tag is put into a buffer. -/
def contentSource (tag content : String) : List (String × Value) → Source
  | [] => .text
  | (name, _) :: entries =>
    if name = tag then .text
    else if name = content then .buffer
    else contentSource tag content entries

/-- The name of the variant under `tag`, and what is written for it under `content`. The value is
read from the text, and in an array the name has to be a string. -/
def adjacent (tag content : String) (h : [tag, content].Nodup) (variants : Variants α) :
    Codec α where
  encode a := .obj [(tag, .str (variants.encode a).1), (content, (variants.encode a).2)]
  decode
    | .obj entries => match entry entries tag, entry entries content with
      | some (some name), some (some value) => (name.unitName .text).bind fun name =>
        variants.decode (contentSource tag content entries) name value
      | _, _ => none
    | .arr [.str name, value] => variants.decode .text name value
    | _ => none
  valid := variants.valid
  decode_encode a ha := by
    have hne : content ≠ tag := by simpa [eq_comm] using h
    have htag : entry [(tag, .str (variants.encode a).1), (content, (variants.encode a).2)] tag =
        some (some (.str (variants.encode a).1)) := by
      simp [entry, hne]
    have hcontent : entry [(tag, .str (variants.encode a).1), (content, (variants.encode a).2)]
        content = some (some (variants.encode a).2) := by
      simp [entry, hne.symm]
    dsimp only
    rw [htag, hcontent]
    exact variants.decode_encode _ a ha

/-- A value shows the name of a variant, and a content that is read from a source. Other entries do
not matter. -/
inductive Tagged (tag content : String) : Value → Source → String → Value → Prop
  | arr {name : String} {value : Value} :
    Tagged tag content (.arr [.str name, value]) .text name value
  | tagFirst {pre mid post : List (String × Value)} {tagged value : Value} {name : String}
    (hname : tagged.unitName .text = some name)
    (hothers : ∀ e ∈ pre ++ (mid ++ post), e.1 ≠ tag ∧ e.1 ≠ content) :
    Tagged tag content (.obj (pre ++ (tag, tagged) :: (mid ++ (content, value) :: post))) .text
      name value
  | contentFirst {pre mid post : List (String × Value)} {tagged value : Value} {name : String}
    (hname : tagged.unitName .text = some name)
    (hothers : ∀ e ∈ pre ++ (mid ++ post), e.1 ≠ tag ∧ e.1 ≠ content) :
    Tagged tag content (.obj (pre ++ (content, value) :: (mid ++ (tag, tagged) :: post))) .buffer
      name value

theorem contentSource_append {tag content : String} {pre es : List (String × Value)}
    (h : ∀ e ∈ pre, e.1 ≠ tag ∧ e.1 ≠ content) :
    contentSource tag content (pre ++ es) = contentSource tag content es := by
  induction pre with
  | nil => rfl
  | cons e pre ih =>
    obtain ⟨htag, hcontent⟩ := h e List.mem_cons_self
    rw [List.cons_append, contentSource, if_neg htag, if_neg hcontent]
    exact ih fun e' he' => h e' (List.mem_cons_of_mem _ he')

/-- **What is read as a variant.** -/
theorem adjacent_decode_iff {tag content : String} {h : [tag, content].Nodup}
    {variants : Variants α} {v : Value} {a : α} :
    (adjacent tag content h variants).decode v = some a ↔
      ∃ source name value, Tagged tag content v source name value ∧
        variants.decode source name value = some a := by
  have hne : tag ≠ content := by simpa using h
  constructor
  · intro hdecode
    simp only [adjacent] at hdecode
    split at hdecode
    · next entries =>
      split at hdecode
      · next tagged value htag hcontent =>
        obtain ⟨name, hname, ha⟩ := Option.bind_eq_some_iff.1 hdecode
        rcases exists_split_of_entries hne htag hcontent with
          ⟨pre, mid, post, rfl, hothers⟩ | ⟨pre, mid, post, rfl, hothers⟩
        · rw [contentSource_append fun e he => hothers e (List.mem_append_left _ he),
            contentSource, if_pos rfl] at ha
          exact ⟨.text, name, value, .tagFirst hname hothers, ha⟩
        · rw [contentSource_append fun e he => hothers e (List.mem_append_left _ he),
            contentSource, if_neg hne.symm, if_pos rfl] at ha
          exact ⟨.buffer, name, value, .contentFirst hname hothers, ha⟩
      · cases hdecode
    · next name value => exact ⟨.text, name, value, .arr, hdecode⟩
    · cases hdecode
  · rintro ⟨source, name, value, htagged, ha⟩
    cases htagged with
    | arr => exact ha
    | @tagFirst pre mid post tagged _ _ hname hothers =>
      obtain ⟨htag, hcontent⟩ := entries_of_split (v := tagged) (w := value) hne hothers
      simp only [adjacent, htag, hcontent]
      rw [contentSource_append fun e he => hothers e (List.mem_append_left _ he), contentSource,
        if_pos rfl]
      exact Option.bind_eq_some_iff.2 ⟨name, hname, ha⟩
    | @contentFirst pre mid post tagged _ _ hname hothers =>
      obtain ⟨hcontent, htag⟩ := entries_of_split (v := value) (w := tagged) hne.symm
        fun e he => (hothers e he).symm
      simp only [adjacent, htag, hcontent]
      rw [contentSource_append fun e he => hothers e (List.mem_append_left _ he), contentSource,
        if_neg hne.symm, if_pos rfl]
      exact Option.bind_eq_some_iff.2 ⟨name, hname, ha⟩

end JsonCodec
