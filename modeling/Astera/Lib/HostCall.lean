import Mathlib.Data.Int.Notation
import Mathlib.Data.List.Basic

/-!
# Calls between contracts

A call is the name of an entrypoint with untyped values, which each side encodes by its own types.
A record travels as a map from the names of its fields and is read back only by a record with the
same names; a name of more than `maxNameLength` characters cannot be called.
-/

namespace HostCall

variable {α β γ C : Type}

inductive Val
  | void
  | bool (b : Bool)
  | u32 (n : ℕ)
  | u64 (n : ℕ)
  | i32 (n : ℤ)
  | i64 (n : ℤ)
  | i128 (n : ℤ)
  | address (a : ℕ)
  | string (s : List UInt8)
  | symbol (s : String)
  | vec (vs : List Val)
  | map (fields : List (String × Val))

/-- How the values of a type travel. -/
structure Codec (α : Type) where
  encode : α → Val
  decode : Val → Option α
  decode_encode : ∀ a, decode (encode a) = some a

namespace Codec

attribute [simp] decode_encode

def bool : Codec Bool where
  encode := .bool
  decode := fun | .bool b => some b | _ => none
  decode_encode := fun _ => rfl

def u32 : Codec ℕ where
  encode := .u32
  decode := fun | .u32 n => some n | _ => none
  decode_encode := fun _ => rfl

def u64 : Codec ℕ where
  encode := .u64
  decode := fun | .u64 n => some n | _ => none
  decode_encode := fun _ => rfl

def i32 : Codec ℤ where
  encode := .i32
  decode := fun | .i32 n => some n | _ => none
  decode_encode := fun _ => rfl

def i64 : Codec ℤ where
  encode := .i64
  decode := fun | .i64 n => some n | _ => none
  decode_encode := fun _ => rfl

def i128 : Codec ℤ where
  encode := .i128
  decode := fun | .i128 n => some n | _ => none
  decode_encode := fun _ => rfl

def address : Codec ℕ where
  encode := .address
  decode := fun | .address a => some a | _ => none
  decode_encode := fun _ => rfl

def string : Codec (List UInt8) where
  encode := .string
  decode := fun | .string s => some s | _ => none
  decode_encode := fun _ => rfl

/-- An optional value; one that is there travels like a plain one. -/
def option (c : Codec α) (present : ∀ a, c.encode a ≠ .void) : Codec (Option α) where
  encode := fun a => a.elim .void c.encode
  decode := fun v =>
    match v with
    | .void => some none
    | v => (c.decode v).map some
  decode_encode := fun a => by
    cases a with
    | none => rfl
    | some a =>
      have hpresent := present a
      have hdecode := c.decode_encode a
      dsimp only [Option.elim_some]
      generalize c.encode a = v at hpresent hdecode
      cases v with
      | void => exact absurd rfl hpresent
      | _ => simp only [hdecode, Option.map_some]

/-- A list travels item by item. -/
def list (c : Codec α) : Codec (List α) where
  encode := fun as => .vec (as.map c.encode)
  decode := fun | .vec vs => vs.mapM c.decode | _ => none
  decode_encode := fun as => by
    induction as with
    | nil => rfl
    | cons a as ih =>
      simp only [List.map_cons, List.mapM_cons, decode_encode]
      simp only at ih
      simp [ih]

/-- A case of an enumeration travels by its name. -/
def enum (cases : List α) (name : α → String) (complete : ∀ a, a ∈ cases)
    (injective : Function.Injective name) : Codec α where
  encode := fun a => .vec [.symbol (name a)]
  decode := fun | .vec [.symbol s] => cases.find? (fun a => name a = s) | _ => none
  decode_encode := fun a => by
    cases hfind : cases.find? fun b => name b = name a with
    | none => simpa using List.find?_eq_none.1 hfind a (complete a)
    | some b =>
      have hname : name b = name a := by simpa using List.find?_some hfind
      simp [injective hname, hfind]

/-- Another type with the same values. -/
def convert (c : Codec α) (pack : α → β) (unpack : β → α) (pack_unpack : ∀ b, pack (unpack b) = b) :
    Codec β where
  encode := fun b => c.encode (unpack b)
  decode := fun v => (c.decode v).map pack
  decode_encode := fun b => by simp [pack_unpack]

section Convert

variable {c : Codec α} {pack : α → β} {unpack : β → α} {h : ∀ b, pack (unpack b) = b}

@[simp]
theorem convert_encode (b : β) : (c.convert pack unpack h).encode b = c.encode (unpack b) := rfl

@[simp]
theorem convert_decode (v : Val) : (c.convert pack unpack h).decode v = (c.decode v).map pack := rfl

end Convert

end Codec

/-! ## Records -/

/-- How the fields of a record travel. -/
structure Fields (α : Type) where
  names : List String
  encode : α → List (String × Val)
  decode : List (String × Val) → Option α
  names_encode : ∀ a, (encode a).map Prod.fst = names
  /-- Whatever else a map has, the fields are read by their names. -/
  decode_of_lookup : ∀ a fields, (∀ field ∈ encode a, fields.lookup field.1 = some field.2) →
    decode fields = some a

namespace Fields

def one (name : String) (c : Codec α) : Fields α where
  names := [name]
  encode := fun a => [(name, c.encode a)]
  decode := fun fields => (fields.lookup name).bind c.decode
  names_encode := fun _ => rfl
  decode_of_lookup := fun a fields hlookup => by
    rw [hlookup (name, c.encode a) List.mem_cons_self, Option.bind_some, c.decode_encode]

def and (f : Fields α) (g : Fields β) : Fields (α × β) where
  names := f.names ++ g.names
  encode := fun x => f.encode x.1 ++ g.encode x.2
  decode := fun fields => (f.decode fields).bind fun a => (g.decode fields).map fun b => (a, b)
  names_encode := fun x => by rw [List.map_append, f.names_encode, g.names_encode]
  decode_of_lookup := fun x fields hlookup => by
    have hf := f.decode_of_lookup x.1 fields fun field hmem =>
      hlookup field (List.mem_append_left _ hmem)
    have hg := g.decode_of_lookup x.2 fields fun field hmem =>
      hlookup field (List.mem_append_right _ hmem)
    rw [hf, hg]
    rfl

/-- The same fields, of another type. -/
def convert (f : Fields α) (pack : α → β) (unpack : β → α)
    (pack_unpack : ∀ b, pack (unpack b) = b) : Fields β where
  names := f.names
  encode := fun b => f.encode (unpack b)
  decode := fun fields => (f.decode fields).map pack
  names_encode := fun b => f.names_encode (unpack b)
  decode_of_lookup := fun b fields hlookup => by
    rw [f.decode_of_lookup (unpack b) fields hlookup, Option.map_some, pack_unpack]

def value (f : Fields α) (a : α) (name : String) : Option Val := (f.encode a).lookup name

end Fields

/-- The entry of a name that stands once. -/
theorem lookup_eq_some {fields : List (String × Val)} (hnodup : (fields.map Prod.fst).Nodup)
    {field : String × Val} (hmem : field ∈ fields) : fields.lookup field.1 = some field.2 := by
  induction fields with
  | nil => cases hmem
  | cons head fields ih =>
    rw [List.map_cons, List.nodup_cons] at hnodup
    rcases List.mem_cons.1 hmem with rfl | hmem
    · rw [List.lookup_cons, beq_self_eq_true]
    · have hne : field.1 ≠ head.1 := by
        intro heq
        exact hnodup.1 (heq ▸ List.mem_map_of_mem hmem)
      rw [List.lookup_cons, beq_false_of_ne hne]
      exact ih hnodup.2 hmem

/-- A record is read back from a map with exactly its names. -/
def Codec.record (f : Fields α) (nodup : f.names.Nodup) : Codec α where
  encode := fun a => .map (f.encode a)
  decode := fun
    | .map fields => if (fields.map Prod.fst).Perm f.names then f.decode fields else none
    | _ => none
  decode_encode := fun a => by
    have hnodup : ((f.encode a).map Prod.fst).Nodup := by rwa [f.names_encode]
    dsimp only
    rw [if_pos (by rw [f.names_encode]), f.decode_of_lookup a _ fun field => lookup_eq_some hnodup]

/-- A record is not read by one whose names differ. -/
theorem Codec.record_decode_eq_none {f : Fields α} {g : Fields β} {hf : f.names.Nodup}
    {hg : g.names.Nodup} (hnames : ¬ f.names.Perm g.names) (a : α) :
    (Codec.record g hg).decode ((Codec.record f hf).encode a) = none := by
  refine if_neg ?_
  rw [f.names_encode]
  exact hnames

/-- A record that travels as another one does is read from it. -/
theorem Codec.record_decode_eq_some {f : Fields α} {g : Fields β} {hf : f.names.Nodup}
    {hg : g.names.Nodup} {a : α} {b : β} (hsame : f.encode a = g.encode b) :
    (Codec.record g hg).decode ((Codec.record f hf).encode a) = some b := by
  have hsent : (Codec.record f hf).encode a = (Codec.record g hg).encode b :=
    congrArg Val.map hsame
  rw [hsent, decode_encode]

/-- A value that is there and cannot be read is not read as an optional one either. -/
theorem Codec.option_decode_eq_none {c : Codec α} {c' : Codec β} {h : ∀ a, c.encode a ≠ .void}
    {h' : ∀ b, c'.encode b ≠ .void} {b : β} (hnone : c.decode (c'.encode b) = none) :
    (option c h).decode ((option c' h').encode (some b)) = none := by
  have hpresent := h' b
  simp only [option, Option.elim_some]
  generalize c'.encode b = v at hnone hpresent
  cases v with
  | void => exact absurd rfl hpresent
  | _ => simp only [hnone, Option.map_none]

/-- A list with an item that the callee cannot read is not read. -/
theorem Codec.list_decode_eq_none {c : Codec α} {c' : Codec β}
    (hnone : ∀ b, c.decode (c'.encode b) = none) {bs : List β} (hbs : bs ≠ []) :
    (list c).decode ((list c').encode bs) = none := by
  cases bs with
  | nil => exact absurd rfl hbs
  | cons b bs => simp [list, hnone]

/-- A call: the name of an entrypoint and its arguments. -/
structure Call where
  name : String
  args : List Val

/-- How the arguments of an entrypoint travel. -/
structure Args (α : Type) where
  arity : ℕ
  encode : α → List Val
  decode : List Val → Option α
  decode_encode : ∀ a, decode (encode a) = some a
  length_encode : ∀ a, (encode a).length = arity
  length_of_decode : ∀ vs a, decode vs = some a → vs.length = arity

namespace Args

attribute [simp] decode_encode

def one (c : Codec α) : Args α where
  arity := 1
  encode := fun a => [c.encode a]
  decode := fun | [v] => c.decode v | _ => none
  decode_encode := c.decode_encode
  length_encode := fun _ => rfl
  length_of_decode := fun vs a h => by
    match vs, h with
    | [v], _ => rfl

def cons (c : Codec α) (as : Args β) : Args (α × β) where
  arity := as.arity + 1
  encode := fun x => c.encode x.1 :: as.encode x.2
  decode := fun
    | v :: vs => (c.decode v).bind fun a => (as.decode vs).map fun b => (a, b)
    | [] => none
  decode_encode := fun x => by simp
  length_encode := fun x => by rw [List.length_cons, as.length_encode]
  length_of_decode := fun vs x h => by
    match vs, h with
    | v :: vs, h =>
      simp only [Option.bind_eq_some_iff, Option.map_eq_some_iff] at h
      obtain ⟨-, -, b, hb, -⟩ := h
      rw [List.length_cons, as.length_of_decode vs b hb]

def pair (c : Codec α) (d : Codec β) : Args (α × β) := .cons c (.one d)

end Args

def Call.of (name : String) (as : Args α) (a : α) : Call := ⟨name, as.encode a⟩

/-! ## Entrypoints -/

/-- The most characters that the name of an entrypoint can have. -/
def maxNameLength : ℕ := 32

/-- An entrypoint, with what it makes of a list of values. -/
structure Entrypoint (C : Type) where
  name : String
  receive : List Val → Option C

def Entrypoint.of (name : String) (as : Args α) (enter : α → C) : Entrypoint C :=
  ⟨name, fun vs => (as.decode vs).map enter⟩

/-- What a contract with these entrypoints makes of a call; `none` is a trap. -/
def dispatch (entrypoints : List (Entrypoint C)) (call : Call) : Option C :=
  if call.name.length ≤ maxNameLength then
    (entrypoints.find? fun e => e.name = call.name).bind fun e => e.receive call.args
  else none

section Dispatch

variable {name name' : String} {cs : List Char} {as : Args α} {as' : Args β} {enter : α → C}
  {b : β} {entrypoints : List (Entrypoint C)}

/-- Entrypoints of other names are passed over. -/
theorem dispatch_of_ne (hne : name ≠ name') :
    dispatch (.of name as enter :: entrypoints) (.of name' as' b) =
      dispatch entrypoints (.of name' as' b) := by
  unfold dispatch
  rw [List.find?_cons_of_neg (by simp [Entrypoint.of, Call.of, hne])]

theorem dispatch_of_eq (hname : name = .ofList cs) (hshort : cs.length ≤ maxNameLength) :
    dispatch (.of name as enter :: entrypoints) (.of name as' b) =
      (as.decode (as'.encode b)).map enter := by
  unfold dispatch
  rw [List.find?_cons_of_pos (by simp [Entrypoint.of, Call.of])]
  exact if_pos (le_of_eq_of_le (by rw [Call.of, hname, String.length_ofList]) hshort)

theorem dispatch_nil {call : Call} : dispatch ([] : List (Entrypoint C)) call = none := by
  unfold dispatch
  split_ifs <;> rfl

theorem dispatch_of_long (hname : name' = .ofList cs) (hlong : maxNameLength < cs.length) :
    dispatch entrypoints (.of name' as' b) = none :=
  if_neg (Nat.not_le_of_lt (lt_of_lt_of_eq hlong (by rw [Call.of, hname, String.length_ofList])))

end Dispatch

/-- Two arguments are not decoded if the second is not. -/
theorem Args.pair_decode_eq_none {α' β' : Type} {c : Codec α} {d : Codec β} {c' : Codec α'}
    {d' : Codec β'} {x : α' × β'} (hnone : d.decode (d'.encode x.2) = none) :
    (Args.pair c d).decode ((Args.pair c' d').encode x) = none := by
  simp [pair, cons, one, hnone]

/-- An entrypoint with another number of arguments does not decode a call. -/
theorem Args.decode_eq_none {as : Args α} {as' : Args β} (harity : as.arity ≠ as'.arity) (b : β) :
    as.decode (as'.encode b) = none := by
  cases hdecode : as.decode (as'.encode b) with
  | none => rfl
  | some a =>
    have hlength := as.length_of_decode _ a hdecode
    rw [as'.length_encode] at hlength
    exact absurd hlength.symm harity

end HostCall
