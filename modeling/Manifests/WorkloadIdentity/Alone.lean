import Manifests.WorkloadIdentity

/-! One run of the script for itself, when nothing fails. -/
namespace Manifests.WorkloadIdentity
open Library Library.Clients

/-- What the first commands leave. -/
def withGsa (gcloud : Gcloud) (name : String) (s : Cloud) : Cloud :=
  if (listed gcloud s name).Nonempty then s else s.withAccount ⟨gcloud.project, name⟩

def withGsas (gcloud : Gcloud) (environ : Environ) (s : Cloud) : Cloud :=
  withGsa gcloud (userGsa environ) (withGsa gcloud (systemGsa environ) s)

/-- What binding two accounts leaves. -/
def bound (environ : Environ) (s : Cloud) (t : String × String) : Cloud :=
  (s.withMember (gsaFull environ t.1) (member environ t.2)).withServiceAccount
    (kfpNamespace environ, t.2) (some (gsaFull environ t.1).email)

/-- A missing service account of the namespace can be made, and the one that is meant can be bound. -/
structure Bindable (gcloud : Gcloud) (environ : Environ) (s : Cloud) (t : String × String) : Prop where
  member : gcloud.accepts (.addMember (gsaFull environ t.1) (member environ t.2)) = true
  ksa : s.serviceAccounts (kfpNamespace environ, t.2) = none → kfpNamespace environ ∈ s.namespaces ∧
    gcloud.accepts (.createServiceAccount (kfpNamespace environ, t.2)) = true
  annotation : gcloud.accepts
    (.annotate (kfpNamespace environ, t.2) (gsaFull environ t.1).email) = true

/-- Two accounts can be bound. -/
structure Takes (gcloud : Gcloud) (environ : Environ) (s : Cloud) (t : String × String) : Prop extends
    Bindable gcloud environ s t where
  account : gsaFull environ t.1 ∈ s.accounts

/-- The script sees an account of the name, or it can make one. -/
def Passes (gcloud : Gcloud) (name : String) (s : Cloud) : Prop :=
  (listed gcloud s name).Nonempty ∨ gcloud.accepts (.createAccount name) = true

/-- Behind that the account is there: it was, or the script can tell that it was not and makes it where
it is looked for. -/
structure Found (gcloud : Gcloud) (environ : Environ) (name : String) (s : Cloud) : Prop where
  passes : Passes gcloud name s
  there : gsaFull environ name ∈ s.accounts ∨
    gcloud.project = value environ "PROJECT_ID" ∧ ¬ (listed gcloud s name).Nonempty

section
variable {gcloud : Gcloud} {environ : Environ} {s s' a b : Cloud} {t t' : String × String}
  {next : Script} {name other : String} {ts : List (String × String)} {account : Account}

theorem listed_own (h : ⟨gcloud.project, name⟩ ∈ s.accounts) : (listed gcloud s name).Nonempty :=
  ⟨_, Finset.mem_filter.mpr ⟨h, rfl, gcloud.own _ _⟩⟩

theorem listed_congr (h : s.accounts = s'.accounts) : listed gcloud s name = listed gcloud s' name := by
  rw [listed, listed, h]

theorem withGsa_of_mem (h : ⟨gcloud.project, name⟩ ∈ s.accounts) : withGsa gcloud name s = s :=
  if_pos (listed_own h)

theorem listed_withGsa : (listed gcloud (withGsa gcloud name s) name).Nonempty := by
  unfold withGsa
  split
  · next h => exact h
  · exact listed_own (Finset.mem_insert_self _ _)

theorem mem_withGsa : account ∈ (withGsa gcloud name s).accounts ↔
    account ∈ s.accounts ∨ account = ⟨gcloud.project, name⟩ ∧ ¬ (listed gcloud s name).Nonempty := by
  unfold withGsa
  split
  · next h => simp [h]
  · next h => simp [Cloud.withAccount, h, or_comm]

theorem withGsa_congr (h : s.accounts = s'.accounts) :
    (withGsa gcloud name s).accounts = (withGsa gcloud name s').accounts := by
  ext account
  rw [mem_withGsa, mem_withGsa, h, listed_congr h]

/-- Nothing but the accounts is changed. -/
theorem withGsa_other : (withGsa gcloud name s).members = s.members ∧
    (withGsa gcloud name s).namespaces = s.namespaces ∧
      (withGsa gcloud name s).serviceAccounts = s.serviceAccounts := by
  unfold withGsa
  split <;> exact ⟨rfl, rfl, rfl⟩

theorem withGsas_members : (withGsas gcloud environ s).members = s.members :=
  withGsa_other.1.trans withGsa_other.1

theorem withGsas_namespaces : (withGsas gcloud environ s).namespaces = s.namespaces :=
  withGsa_other.2.1.trans withGsa_other.2.1

theorem withGsas_serviceAccounts : (withGsas gcloud environ s).serviceAccounts = s.serviceAccounts :=
  withGsa_other.2.2.trans withGsa_other.2.2

theorem alone_check {request : Request} : (check request next).alone (respond gcloud) s =
    if (respond gcloud s request).1 = none then (1, (respond gcloud s request).2)
    else next.alone (respond gcloud) (respond gcloud s request).2 := by
  rw [check, Client.alone]
  cases (respond gcloud s request).1 with
  | none => rfl
  | some _ => rfl

theorem alone_createGsa (h : Passes gcloud name s) :
    (createGsaIfNotPresent name next).alone (respond gcloud) s =
      next.alone (respond gcloud) (withGsa gcloud name s) := by
  by_cases hlisted : (listed gcloud s name).Nonempty
  · simp [createGsaIfNotPresent, Client.alone, withGsa, hlisted]
  · have habsent : ⟨gcloud.project, name⟩ ∉ s.accounts := mt listed_own hlisted
    have haccepted := respond_accepted s (h.resolve_left hlisted)
    simp [createGsaIfNotPresent, Client.alone, alone_check, haccepted, perform, withGsa, hlisted, habsent]

theorem alone_createGsa_fails (h : ¬ Passes gcloud name s) :
    ((createGsaIfNotPresent name next).alone (respond gcloud) s).1 = 1 := by
  obtain ⟨hlisted, hrefused⟩ := not_or.mp h
  simp [createGsaIfNotPresent, Client.alone, alone_check, respond_refused _ hrefused, hlisted]

theorem alone_createKsa {key : String × String} :
    (createKsaIfNotPresent key next).alone (respond gcloud) s =
      if s.serviceAccounts key = none then
        (check (.createServiceAccount key) next).alone (respond gcloud) s
      else next.alone (respond gcloud) s := by
  by_cases hnone : s.serviceAccounts key = none
  · simp [createKsaIfNotPresent, Client.alone, hnone]
  · simp [createKsaIfNotPresent, Client.alone, hnone]

theorem alone_bind (h : Takes gcloud environ s t) :
    (bindGsaAndKsa environ t.1 t.2 next).alone (respond gcloud) s =
      next.alone (respond gcloud) (bound environ s t) := by
  rw [bindGsaAndKsa, alone_check, respond_accepted _ h.member]
  by_cases hnone : s.serviceAccounts (kfpNamespace environ, t.2) = none
  · obtain ⟨hns, hcreate⟩ := h.ksa hnone
    simp [perform, h.account, alone_createKsa, alone_check, respond_accepted _ hcreate,
      respond_accepted _ h.annotation, bound, hnone, hns, Cloud.withMember, Cloud.withServiceAccount]
  · simp [perform, h.account, alone_createKsa, alone_check, respond_accepted _ h.annotation, bound, hnone,
      Cloud.withMember]

theorem alone_bind_fails (h : ¬ Takes gcloud environ s t) :
    ((bindGsaAndKsa environ t.1 t.2 next).alone (respond gcloud) s).1 = 1 := by
  rw [bindGsaAndKsa, alone_check]
  by_cases hmember : gcloud.accepts (.addMember (gsaFull environ t.1) (member environ t.2)) = true
  swap
  · rw [respond_refused _ hmember, if_pos rfl]
  rw [respond_accepted _ hmember]
  by_cases haccount : gsaFull environ t.1 ∈ s.accounts
  swap
  · simp [perform, haccount]
  by_cases hannotation : gcloud.accepts
      (.annotate (kfpNamespace environ, t.2) (gsaFull environ t.1).email) = true
  swap
  · -- whatever becomes of the service account, it is not annotated
    simp only [perform, haccount, if_true, reduceCtorEq, if_false, alone_createKsa, alone_check,
      respond_refused _ hannotation]
    split
    · split <;> rfl
    · rfl
  · have hksa := fun hksa => h ⟨⟨hmember, hksa, hannotation⟩, haccount⟩
    obtain ⟨hnone, hnot⟩ := Classical.not_imp.mp hksa
    have hcreate : (respond gcloud (s.withMember (gsaFull environ t.1) (member environ t.2))
        (.createServiceAccount (kfpNamespace environ, t.2))).1 = none := by
      by_cases haccepted : gcloud.accepts
          (.createServiceAccount (kfpNamespace environ, t.2)) = true
      · have hns : kfpNamespace environ ∉ s.namespaces := fun hns => hnot ⟨hns, haccepted⟩
        simp [respond_accepted _ haccepted, perform, Cloud.withMember, hns]
      · rw [respond_refused _ haccepted]
    have hstill : (s.withMember (gsaFull environ t.1) (member environ t.2)).serviceAccounts
        (kfpNamespace environ, t.2) = none := hnone
    simp only [perform, haccount, if_true, reduceCtorEq, if_false, alone_createKsa, hstill]
    rw [alone_check, if_pos hcreate]

theorem takes_bound (h : Takes gcloud environ s t) :
    Takes gcloud environ (bound environ s t) t' ↔ Takes gcloud environ s t' := by
  by_cases hkey : (kfpNamespace environ, t'.2) = (kfpNamespace environ, t.2)
  · have hsome : (bound environ s t).serviceAccounts (kfpNamespace environ, t'.2) ≠ none := by
      rw [hkey, bound, Cloud.serviceAccounts_self]
      exact Option.some_ne_none _
    exact ⟨fun ht' => ⟨⟨ht'.member, fun hnone => hkey ▸ h.ksa (hkey ▸ hnone), ht'.annotation⟩,
        ht'.account⟩,
      fun ht' => ⟨⟨ht'.member, fun hnone => absurd hnone hsome, ht'.annotation⟩, ht'.account⟩⟩
  · have hsame : (bound environ s t).serviceAccounts (kfpNamespace environ, t'.2) =
        s.serviceAccounts (kfpNamespace environ, t'.2) := Cloud.serviceAccounts_other hkey
    exact ⟨fun ht' => ⟨⟨ht'.member, fun hnone => ht'.ksa (hsame.trans hnone), ht'.annotation⟩,
        ht'.account⟩,
      fun ht' => ⟨⟨ht'.member, fun hnone => ht'.ksa (hsame.symm.trans hnone), ht'.annotation⟩,
        ht'.account⟩⟩

theorem alone_targets :
    (ts.foldr (fun t => bindGsaAndKsa environ t.1 t.2) (.done 0)).alone (respond gcloud) s = (0, s') ↔
      (∀ t ∈ ts, Takes gcloud environ s t) ∧ s' = ts.foldl (bound environ) s := by
  induction ts generalizing s with
  | nil => simp [Client.alone, eq_comm]
  | cons t ts ih =>
    rw [List.foldr_cons, List.foldl_cons]
    by_cases h : Takes gcloud environ s t
    · rw [alone_bind h, ih]
      simp [takes_bound h, h]
    · refine iff_of_false (fun hok => ?_) fun hall => h (hall.1 t List.mem_cons_self)
      have hstatus := congrArg Prod.fst hok
      rw [alone_bind_fails h] at hstatus
      cases hstatus

/-- The two accounts are got at, and then everything is bound. -/
structure Goes (gcloud : Gcloud) (environ : Environ) (s : Cloud) : Prop where
  system : Passes gcloud (systemGsa environ) s
  user : Passes gcloud (userGsa environ) (withGsa gcloud (systemGsa environ) s)
  takes : ∀ t ∈ targets environ, Takes gcloud environ (withGsas gcloud environ s) t

theorem alone_bindings : (bindings environ).alone (respond gcloud) s = (0, s') ↔
    Goes gcloud environ s ∧
      s' = (targets environ).foldl (bound environ) (withGsas gcloud environ s) := by
  rw [bindings, bindEach_targets]
  by_cases hsystem : Passes gcloud (systemGsa environ) s
  swap
  · refine iff_of_false (fun hok => ?_) fun hgoes => hsystem hgoes.1.system
    have hstatus := congrArg Prod.fst hok
    rw [alone_createGsa_fails hsystem] at hstatus
    cases hstatus
  rw [alone_createGsa hsystem]
  by_cases huser : Passes gcloud (userGsa environ) (withGsa gcloud (systemGsa environ) s)
  swap
  · refine iff_of_false (fun hok => ?_) fun hgoes => huser hgoes.1.user
    have hstatus := congrArg Prod.fst hok
    rw [alone_createGsa_fails huser] at hstatus
    cases hstatus
  rw [alone_createGsa huser, ← withGsas, alone_targets]
  exact and_congr_left fun _ => ⟨fun htakes => ⟨hsystem, huser, htakes⟩, Goes.takes⟩

/-- What is bound in the end does not depend on what was bound before. -/
theorem foldl_bound_eq (haccounts : a.accounts = b.accounts) (hnamespaces : a.namespaces = b.namespaces)
    (hmembers : ∀ m, (m ∈ a.members ∨ ∃ t ∈ ts, m = (gsaFull environ t.1, member environ t.2)) ↔
      (m ∈ b.members ∨ ∃ t ∈ ts, m = (gsaFull environ t.1, member environ t.2)))
    (hkeys : ∀ key, (∀ t ∈ ts, key ≠ (kfpNamespace environ, t.2)) →
      a.serviceAccounts key = b.serviceAccounts key) :
    ts.foldl (bound environ) a = ts.foldl (bound environ) b := by
  induction ts generalizing a b with
  | nil =>
    refine Cloud.ext haccounts (Finset.ext fun m => by simpa using hmembers m) hnamespaces ?_
    exact funext fun key => hkeys key (by simp)
  | cons t ts ih =>
    refine ih haccounts hnamespaces (fun m => ?_) fun key hkey => ?_
    · have hm := hmembers m
      simp only [List.exists_mem_cons_iff] at hm
      simp only [bound, Cloud.withMember, Cloud.withServiceAccount, Finset.mem_insert]
      tauto
    · by_cases heq : key = (kfpNamespace environ, t.2)
      · rw [heq, bound, bound, Cloud.serviceAccounts_self, Cloud.serviceAccounts_self]
      · rw [bound, bound, Cloud.serviceAccounts_other heq, Cloud.serviceAccounts_other heq]
        refine hkeys key fun t' ht' => ?_
        rcases List.mem_cons.mp ht' with rfl | ht'
        · exact heq
        · exact hkey t' ht'

theorem systemGsa_target : (systemGsa environ, "ml-pipeline-ui") ∈ targets environ := by
  simp [targets, systemKsa]

theorem userGsa_target : (userGsa environ, "pipeline-runner") ∈ targets environ := by
  simp [targets, userKsa]

/-- The first account is there in the end exactly when the first command has seen to it. -/
theorem system_mem_iff : gsaFull environ (systemGsa environ) ∈ (withGsas gcloud environ s).accounts ↔
    gsaFull environ (systemGsa environ) ∈ s.accounts ∨
      gcloud.project = value environ "PROJECT_ID" ∧ ¬ (listed gcloud s (systemGsa environ)).Nonempty := by
  rw [withGsas, mem_withGsa, mem_withGsa]
  constructor
  · rintro ((hthere | ⟨heq, hlisted⟩) | ⟨heq, hlisted⟩)
    · exact Or.inl hthere
    · exact Or.inr ⟨(congrArg Account.project heq).symm, hlisted⟩
    · -- the second command would have found an account with the name of the first
      have hname : systemGsa environ = userGsa environ := congrArg Account.name heq
      rw [← hname] at hlisted
      exact absurd listed_withGsa hlisted
  · rintro (hthere | ⟨hproject, hlisted⟩)
    · exact Or.inl (Or.inl hthere)
    · exact Or.inl (Or.inr ⟨by rw [gsaFull, hproject], hlisted⟩)

theorem user_mem_iff : gsaFull environ (userGsa environ) ∈ (withGsas gcloud environ s).accounts ↔
    gsaFull environ (userGsa environ) ∈ (withGsa gcloud (systemGsa environ) s).accounts ∨
      gcloud.project = value environ "PROJECT_ID" ∧
        ¬ (listed gcloud (withGsa gcloud (systemGsa environ) s) (userGsa environ)).Nonempty := by
  rw [withGsas, mem_withGsa]
  refine or_congr_right (and_congr_left fun _ => ?_)
  simp [gsaFull, eq_comm]

/-- What can be bound does not depend on the accounts. -/
theorem bindable_withGsas {t : String × String} :
    Bindable gcloud environ (withGsas gcloud environ s) t ↔ Bindable gcloud environ s t := by
  constructor
  · intro h
    refine ⟨h.member, fun hnone => ?_, h.annotation⟩
    have hksa := h.ksa (by rwa [withGsas_serviceAccounts])
    rwa [withGsas_namespaces] at hksa
  · intro h
    refine ⟨h.member, fun hnone => ?_, h.annotation⟩
    rw [withGsas_namespaces]
    exact h.ksa (by rwa [withGsas_serviceAccounts] at hnone)

theorem goes_iff : Goes gcloud environ s ↔ Found gcloud environ (systemGsa environ) s ∧
    Found gcloud environ (userGsa environ) (withGsa gcloud (systemGsa environ) s) ∧
      ∀ t ∈ targets environ, Bindable gcloud environ s t := by
  constructor
  · intro h
    have hsystem := (h.takes _ systemGsa_target).account
    have huser := (h.takes _ userGsa_target).account
    exact ⟨⟨h.system, system_mem_iff.mp hsystem⟩, ⟨h.user, user_mem_iff.mp huser⟩,
      fun t ht => bindable_withGsas.mp (h.takes t ht).toBindable⟩
  · rintro ⟨hsystem, huser, hall⟩
    refine ⟨hsystem.passes, huser.passes, fun t ht => ⟨bindable_withGsas.mpr (hall t ht), ?_⟩⟩
    rcases List.mem_append.mp ht with hmem | hmem
    · obtain ⟨ksa, _, rfl⟩ := List.mem_map.mp hmem
      exact system_mem_iff.mpr hsystem.there
    · obtain ⟨ksa, _, rfl⟩ := List.mem_map.mp hmem
      exact user_mem_iff.mpr huser.there

end

section
variable {gcloud : Gcloud} {environ : Environ} {typed : List Char} {cloud cloud' : Cloud}

/-- One run for itself, when no command fails that is accepted, goes through exactly when each of the two
accounts is there and seen, or missing and seen to be missing and made, and everything can be bound: another
account whose name passes the filter hides that one is missing. -/
theorem setup_alone_iff (hconfirmed : Confirmed environ typed) :
    (∃ cloud', (setup environ typed).alone (respond gcloud) cloud = (0, cloud')) ↔
      Found gcloud environ (systemGsa environ) cloud ∧
        Found gcloud environ (userGsa environ) (withGsa gcloud (systemGsa environ) cloud) ∧
          ∀ t ∈ targets environ, Bindable gcloud environ cloud t := by
  rw [setup_confirmed hconfirmed, ← goes_iff]
  simp only [alone_bindings]
  exact ⟨fun ⟨_, hgoes, _⟩ => hgoes, fun hgoes => ⟨_, hgoes, rfl⟩⟩

end

/-! A first run in a project without accounts, and the service accounts that it makes there. Names are at
most thirty characters long. -/

def sampleGcloud : Gcloud where
  project := "my-project"
  filter pattern account := decide (pattern.toList <:+: account.name.toList)
  own _ _ := decide_eq_true List.infix_rfl
  accepts
    | .createAccount name => decide (name.length ≤ 30)
    | _ => true
  lists _ := rfl
  gets _ := rfl

def sampleEnviron : Environ where
  texts
    | "PROJECT_ID" => some "my-project"
    | "RESOURCE_PREFIX" => some "my"
    | _ => none
  plain := by simp [Lifecycle.value, isPlain]

def sampleCloud : Cloud := ⟨∅, ∅, {"kubeflow"}, fun _ => none⟩

theorem sample_confirmed : Confirmed sampleEnviron ['Y'] :=
  ⟨by decide, by decide, Or.inl rfl⟩

theorem sample_found : Found sampleGcloud sampleEnviron (systemGsa sampleEnviron) sampleCloud ∧
    Found sampleGcloud sampleEnviron (userGsa sampleEnviron)
      (withGsa sampleGcloud (systemGsa sampleEnviron) sampleCloud) ∧
    ∀ t ∈ targets sampleEnviron, Bindable sampleGcloud sampleEnviron sampleCloud t :=
  ⟨⟨Or.inr (by decide), Or.inr ⟨rfl, by simp [listed, sampleCloud]⟩⟩,
    ⟨Or.inr (by decide), Or.inr ⟨rfl, by decide⟩⟩, fun _ _ => ⟨rfl, fun _ => ⟨by decide, rfl⟩, rfl⟩⟩

theorem setup_alone_iff_sample : ∃ cloud',
    (setup sampleEnviron ['Y']).alone (respond sampleGcloud) sampleCloud = (0, cloud') :=
  (setup_alone_iff sample_confirmed).mpr sample_found

end Manifests.WorkloadIdentity
