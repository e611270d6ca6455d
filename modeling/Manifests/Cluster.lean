import Manifests.Library.Base64
import Manifests.Library.Script
import Manifests.Library.Text
import Manifests.Library.Value

/-! What the job scripts see of the cluster, and the exceptions they can end with. -/
namespace Manifests
open Library

inductive PyError where
  | systemExit (message : String)
  /-- `client.exceptions.ApiException`, with its status and its text. -/
  | apiException (status : Nat) (text : String)
  | exception (message : String)
  | attributeError
  | typeError
  | keyError (key : String)
  | indexError
  | unicodeError
  | binasciiError
  deriving Repr, DecidableEq

/-- The answer to one API call. -/
inductive Answer (α : Type) where
  | ok (a : α)
  | apiException (status : Nat) (text : String)
  deriving Repr, DecidableEq

/-- A secret as the client hands it over; a secret without keys has `data = None`. -/
structure Secret where
  data : Option (List (String × String))
  deriving Repr, DecidableEq

/-- The answer that a read gets when `stored` is there: the secret, 404 only when there is none,
or any other error. -/
def Reads (stored : Option Secret) : Answer Secret → Prop
  | .ok secret => stored = some secret
  | .apiException status _ => status = 404 → stored = none

/-- The body of `create_namespaced_secret`, with the namespace `ns` it goes to. -/
structure SecretBody where
  ns : String
  name : String
  type : String
  data : List (String × String)
  deriving Repr, DecidableEq

/-- The globals of a job script: the lines it has printed and the bind password. -/
structure Globals where
  output : List String := []
  authSecretBindPw : String := ""
  deriving Repr, DecidableEq

abbrev Py := Script PyError Globals

def print (words : List String) : Py Unit :=
  .modify fun g => { g with output := g.output ++ [" ".intercalate words] }

def sysExit {α : Type} (message : String) : Py α := .raise (.systemExit message)

/-- What a call returns or raises. -/
def Answer.call {α : Type} : Answer α → Py α
  | .ok a => pure a
  | .apiException status text => .raise (.apiException status text)

/-- `secret.data.get(key)`. -/
def Secret.dataGet (secret : Secret) (key : String) : Py (Option String) :=
  match secret.data with
  | some data => pure (data.lookup key)
  | none => .raise .attributeError

/-- A value counts as missing when it is `None` or empty. -/
def present : Option String → Option String
  | some s => if s = "" then none else some s
  | none => none

/-- `os.environ[v] if v in os.environ and os.environ[v] else default`. -/
def environOr (v : Option String) (default : String) : String := (present v).getD default

/-- `base64.b64encode(source.encode('ascii')).decode('ascii')`. -/
def b64encode (source : String) : Option String := do
  Text.decodeAscii (Base64.encode (← Text.encodeAscii source))

/-- `d[key]` where a dictionary is expected. -/
def getDict (d : Dict) (key : String) : Py Dict :=
  match d.get key with
  | some (.dict e) => pure e
  | some _ => .raise .typeError
  | none => .raise (.keyError key)

def ofExcept {α : Type} : Except PyError α → Py α
  | .ok a => pure a
  | .error e => .raise e

/-- `try: config.load_kube_config() except: config.load_incluster_config()`. -/
def loadConfig (loadKubeConfig loadInclusterConfig : Except PyError Unit) : Py Unit :=
  (ofExcept loadKubeConfig).catching fun _ => ofExcept loadInclusterConfig

/-- What one run of a job leaves behind: how it ended, what it printed and what it created. -/
structure Run where
  outcome : Except PyError Unit
  output : List String
  created : List SecretBody

/-- A run makes one create call, for the body that `prepare` works out. The cluster changes
only when it accepts the call. -/
def Run.of (prepare : Py SecretBody) (create : Py Unit) : Run :=
  match prepare {} with
  | (.error e, g) => { outcome := .error e, output := g.output, created := [] }
  | (.ok body, g) =>
    match create g with
    | (.error e, g) => { outcome := .error e, output := g.output, created := [] }
    | (.ok (), g) => { outcome := .ok (), output := g.output, created := [body] }

/-- A run creates nothing and fails, or succeeds with one create. -/
theorem Run.of_cases (prepare : Py SecretBody) (create : Py Unit) :
    ((Run.of prepare create).created = [] ∧ (Run.of prepare create).outcome ≠ .ok ()) ∨
      ∃ body g g', prepare {} = (.ok body, g) ∧ create g = (.ok (), g') ∧
        Run.of prepare create = { outcome := .ok (), output := g'.output, created := [body] } := by
  unfold Run.of
  split
  · exact Or.inl ⟨rfl, nofun⟩
  · next body g hp =>
    split
    · exact Or.inl ⟨rfl, nofun⟩
    · next g' hc => exact Or.inr ⟨body, g, g', hp, hc, rfl⟩

theorem loadConfig_ok {r₁ r₂ : Except PyError Unit} {g g' : Globals}
    (h : loadConfig r₁ r₂ g = (.ok (), g')) : g' = g := by
  cases r₁ <;> cases r₂ <;> cases h <;> rfl

theorem Answer.call_ok {α : Type} {answer : Answer α} {a : α} {g g' : Globals}
    (h : answer.call g = (.ok a, g')) : answer = .ok a ∧ g' = g := by
  cases answer <;> cases h
  exact ⟨rfl, rfl⟩

theorem encode_decodeAscii (bs : List UInt8) :
    ∃ t, Text.decodeAscii (Base64.encode bs) = some t ∧ Text.encodeAscii t = some (Base64.encode bs) := by
  have h : (Base64.encode bs).all (fun b => b < 128) = true := by
    simp only [List.all_eq_true, decide_eq_true_eq]
    intro b hb
    exact Base64.encode_lt hb
  have hd : Text.decodeAscii (Base64.encode bs) =
      some (String.ofList ((Base64.encode bs).map fun b => Char.ofNat b.toNat)) := by
    rw [Text.decodeAscii, if_pos h]
  exact ⟨_, hd, Text.encodeAscii_decodeAscii hd⟩

/-- Encoding fails on non-ASCII text only. -/
theorem b64encode_eq_some {source t : String} : b64encode source = some t ↔
    ∃ bs, Text.encodeAscii source = some bs ∧ Text.encodeAscii t = some (Base64.encode bs) := by
  unfold b64encode
  cases hs : Text.encodeAscii source with
  | none => simp
  | some bs =>
    obtain ⟨t', hd, he⟩ := encode_decodeAscii bs
    constructor
    · intro h
      obtain rfl : t' = t := by simpa [hd] using h
      exact ⟨bs, rfl, he⟩
    · rintro ⟨bs', hbs, ht⟩
      cases hbs
      simp [Text.decodeAscii_encodeAscii ht]

theorem b64encode_isSome {source : String} :
    (b64encode source).isSome ↔ (Text.encodeAscii source).isSome := by
  unfold b64encode
  cases hs : Text.encodeAscii source with
  | none => simp
  | some bs =>
    obtain ⟨t, hd, _⟩ := encode_decodeAscii bs
    simp [hd]

@[simp] theorem print_apply {words : List String} {g : Globals} : print words g =
    (.ok (), { g with output := g.output ++ [" ".intercalate words] }) := rfl

@[simp] theorem print_bind {α : Type} {words : List String} {k : Unit → Py α} {g : Globals} :
    (print words >>= k) g = k () { g with output := g.output ++ [" ".intercalate words] } := rfl

@[simp] theorem sysExit_apply {α : Type} {message : String} {g : Globals} :
    (sysExit message : Py α) g = (.error (.systemExit message), g) := rfl

open Library.Script

/-- The exceptions that the `except client.exceptions.ApiException` clauses let through. -/
def NotApi (e : PyError) : Prop := ∀ status text, e ≠ .apiException status text

/-- The updates that only print. -/
def Prints (f : Globals → Globals) : Prop :=
  ∃ lines, f = fun g => { g with output := g.output ++ lines }

theorem updates_prints : Updates Prints where
  id := ⟨[], by simp [funext_iff]⟩
  comp := by
    rintro _ _ ⟨l₁, rfl⟩ ⟨l₂, rfl⟩
    exact ⟨l₁ ++ l₂, by simp [funext_iff]⟩

/-- A script that takes its result from its arguments alone: it prints, but neither looks at the
globals nor at the password among them, and raises no API error. -/
structure Plain {α : Type} (m : Py α) : Prop where
  oblivious : Oblivious Prints m
  raises : Raises NotApi m

section
variable {α β : Type} {m : Py α} {f : α → Py β} {g g' : Globals}

theorem Plain.bindPw_eq {a : α} (hm : Plain m) (h : m g = (.ok a, g')) :
    g'.authSecretBindPw = g.authSecretBindPw := by
  obtain ⟨r, _, ⟨lines, rfl⟩, hr⟩ := hm.oblivious.run
  rw [hr] at h
  cases h
  rfl

/-- Nothing but the bind password differs. -/
def SameOutput (g₁ g₂ : Globals) : Prop := g₁.output = g₂.output

theorem Plain.agree (hm : Plain m) : Agree SameOutput m m := by
  apply hm.oblivious.agree
  rintro _ g₁ g₂ ⟨lines, rfl⟩ h
  exact congrArg (· ++ lines) h

theorem agree_ofExcept (r : Except PyError α) : Agree SameOutput (ofExcept r) (ofExcept r) := by
  cases r with
  | error e => exact agree_raise e
  | ok a => exact agree_pure a

theorem plain_pure (a : α) : Plain (pure a : Py α) :=
  ⟨oblivious_pure updates_prints a, raises_pure a⟩

theorem plain_raise {e : PyError} (h : NotApi e) : Plain (raise e : Py α) :=
  ⟨oblivious_raise updates_prints e, raises_raise h⟩

theorem plain_print (words : List String) : Plain (print words) :=
  ⟨oblivious_modify ⟨_, rfl⟩, raises_modify _⟩

theorem plain_sysExit (message : String) : Plain (sysExit message : Py α) :=
  plain_raise (by simp [NotApi])

theorem plain_ofOption {e : PyError} (h : NotApi e) (o : Option α) :
    Plain (ofOption e o : Py α) := by
  cases o with
  | none => exact plain_raise h
  | some a => exact plain_pure a

theorem plain_bind (hm : Plain m) (hf : ∀ a, Plain (f a)) : Plain (m >>= f) :=
  ⟨oblivious_bind updates_prints hm.oblivious fun a => (hf a).oblivious,
    raises_bind hm.raises fun a => (hf a).raises⟩

theorem plain_dataGet {secret : Secret} {key : String} : Plain (secret.dataGet key) := by
  unfold Secret.dataGet
  split
  · exact plain_pure _
  · exact plain_raise (by simp [NotApi])

end
end Manifests
