import Manifests.WorkloadIdentity.Alone

/-! What runs of the script leave that fail, are cut off or overlap, and what another run makes of it. -/
namespace Manifests.WorkloadIdentity
open Library Library.Clients Relation

/-- The change that a command of the script makes. The second account is made when it is `ready`. -/
inductive Change (gcloud : Gcloud) (environ : Environ) (ready : Cloud → Prop) (s : Cloud) :
    Cloud → Prop where
  | systemGsa : Change gcloud environ ready s (s.withAccount ⟨gcloud.project, systemGsa environ⟩)
  | userGsa (hready : ready s) :
      Change gcloud environ ready s (s.withAccount ⟨gcloud.project, userGsa environ⟩)
  | member {t : String × String} (ht : t ∈ targets environ) :
      Change gcloud environ ready s (s.withMember (gsaFull environ t.1) (member environ t.2))
  | ksa {t : String × String} (ht : t ∈ targets environ)
      (habsent : s.serviceAccounts (kfpNamespace environ, t.2) = none) :
      Change gcloud environ ready s (s.withServiceAccount (kfpNamespace environ, t.2) none)
  | annotated {t : String × String} (ht : t ∈ targets environ) : Change gcloud environ ready s
      (s.withServiceAccount (kfpNamespace environ, t.2) (some (gsaFull environ t.1).email))

abbrev Changes (gcloud : Gcloud) (environ : Environ) (ready : Cloud → Prop) : Cloud → Cloud → Prop :=
  ReflTransGen (Change gcloud environ ready)

/-- What a run that has gone through has set up. -/
def Ends (environ : Environ) (typed : List Char) (status : Nat) (s : Cloud) : Prop :=
  Confirmed environ typed → status = 0 → ∀ t ∈ targets environ, Bound environ t s

/-- From this state on a script makes only changes of these, and what it ends with is so. -/
abbrev Sound (gcloud : Gcloud) (environ : Environ) (ready : Cloud → Prop) (typed : List Char) :
    Script → Cloud → Prop :=
  Guarded (server gcloud) (Changes gcloud environ ready) (Ends environ typed)

section
variable {gcloud : Gcloud} {environ : Environ} {ready K L : Cloud → Prop} {s s' : Cloud}
  {t : String × String} {typed : List Char} {request : Request} {next : Script} {name : String}

theorem Changes.keeps (hK : ∀ s s', Change gcloud environ ready s s' → K s → K s')
    (h : Changes gcloud environ ready s s') (hs : K s) : K s' := by
  induction h with
  | refl => exact hs
  | tail _ hstep ih => exact hK _ _ hstep ih

theorem Change.member_mem {m : Account × String} (h : Change gcloud environ ready s s')
    (hm : m ∈ s.members) : m ∈ s'.members := by
  cases h with
  | member _ => exact Finset.mem_insert_of_mem hm
  | systemGsa | userGsa | ksa | annotated => exact hm

theorem Bound.step (ht : t ∈ targets environ) (h : Change gcloud environ ready s s')
    (hbound : Bound environ t s) : Bound environ t s' := by
  refine ⟨h.member_mem hbound.member, ?_⟩
  cases h with
  | systemGsa | userGsa | member => exact hbound.annotated
  | @ksa t' ht' habsent =>
    have hne : (kfpNamespace environ, t.2) ≠ (kfpNamespace environ, t'.2) := by
      rintro heq
      rw [← heq, hbound.annotated] at habsent
      cases habsent
    exact (Cloud.serviceAccounts_other hne).trans hbound.annotated
  | @annotated t' ht' =>
    by_cases heq : t.2 = t'.2
    · rw [target_unique ht ht' heq]
      exact Cloud.serviceAccounts_self
    · have hne : (kfpNamespace environ, t.2) ≠ (kfpNamespace environ, t'.2) := by
        simpa using heq
      exact (Cloud.serviceAccounts_other hne).trans hbound.annotated

theorem sound_failed : Sound gcloud environ ready typed (.done 1) s :=
  fun _ _ _ hstatus => absurd hstatus one_ne_zero

theorem sound_check (hs : K s) (hK : ∀ s s', Change gcloud environ ready s s' → K s → K s')
    (hchange : ∀ s, K s → Changes gcloud environ ready s (perform gcloud s request).2)
    (hnext : ∀ s, K s → (perform gcloud s request).1 ≠ none →
      Sound gcloud environ ready typed next (perform gcloud s request).2) :
    Sound gcloud environ ready typed (check request next) s := by
  refine guarded_call hs (fun s s' h => h.keeps hK) ?_
  intro s hs response s' hserve
  by_cases haccepted : gcloud.accepts request = true
  swap
  · have hrefused := respond_refused s haccepted
    cases hserve with
    | fails => exact ⟨.refl, sound_failed⟩
    | lost | served =>
      rw [hrefused]
      exact ⟨.refl, sound_failed⟩
  have hrespond := respond_accepted s haccepted
  cases hserve with
  | fails => exact ⟨.refl, sound_failed⟩
  | lost =>
    rw [hrespond]
    exact ⟨hchange s hs, sound_failed⟩
  | served =>
    rw [hrespond]
    refine ⟨hchange s hs, ?_⟩
    cases hresponse : (perform gcloud s request).1 with
    | none => exact sound_failed
    | some _ => exact hnext s hs (by simp [hresponse])

theorem sound_createGsa (hs : K s) (hK : ∀ s s', Change gcloud environ ready s s' → K s → K s')
    (hchange : ∀ s, K s → Change gcloud environ ready s (s.withAccount ⟨gcloud.project, name⟩))
    (hpresent : ∀ s, K s → (listed gcloud s name).Nonempty → L s)
    (hcreated : ∀ s, K s → L (s.withAccount ⟨gcloud.project, name⟩))
    (hnext : ∀ s, L s → Sound gcloud environ ready typed next s) :
    Sound gcloud environ ready typed (createGsaIfNotPresent name next) s := by
  have hcreate (s : Cloud) (hs : K s) :
      Sound gcloud environ ready typed (check (.createAccount name) next) s := by
    refine sound_check hs hK ?_ ?_
    · intro s hs
      rw [perform]
      split
      · exact .refl
      · exact .single (hchange s hs)
    · intro s hs hsome
      by_cases hthere : ⟨gcloud.project, name⟩ ∈ s.accounts
      · simp [perform, hthere] at hsome
      · simpa [perform, hthere] using hnext _ (hcreated s hs)
  refine guarded_call hs (fun s s' h => h.keeps hK) ?_
  intro s hs response s' hserve
  cases hserve with
  | fails => exact ⟨.refl, hcreate s hs⟩
  | lost =>
    rw [respond_list]
    exact ⟨.refl, hcreate s hs⟩
  | served =>
    rw [respond_list]
    refine ⟨.refl, ?_⟩
    show Guarded _ _ _ (if (listed gcloud s name).Nonempty then next else _) s
    split
    · next hlisted => exact hnext s (hpresent s hs hlisted)
    · exact hcreate s hs

/-- The last command, where what is known behind the first one stays. -/
theorem sound_annotate (ht : t ∈ targets environ) (hs : K s)
    (hK : ∀ s s', Change gcloud environ ready s s' → K s → K s')
    (hmember : ∀ s, K s → (gsaFull environ t.1, member environ t.2) ∈ s.members)
    (hnext : ∀ s, K s → Bound environ t s → Sound gcloud environ ready typed next s) :
    Sound gcloud environ ready typed
      (check (.annotate (kfpNamespace environ, t.2) (gsaFull environ t.1).email) next) s := by
  refine sound_check hs hK ?_ ?_
  · intro s hs
    rw [perform]
    split
    · exact .refl
    · exact .single (.annotated ht)
  · intro s hs hsome
    by_cases habsent : s.serviceAccounts (kfpNamespace environ, t.2) = none
    · simp [perform, habsent] at hsome
    · have hbound := hnext _ (hK _ _ (.annotated ht) hs) ⟨hmember s hs, Cloud.serviceAccounts_self⟩
      simpa [perform, habsent] using hbound

theorem sound_createKsa (ht : t ∈ targets environ) (hs : K s)
    (hK : ∀ s s', Change gcloud environ ready s s' → K s → K s')
    (hnext : ∀ s, K s → Sound gcloud environ ready typed next s) :
    Sound gcloud environ ready typed (createKsaIfNotPresent (kfpNamespace environ, t.2) next) s := by
  have hcreate (s : Cloud) (hs : K s) : Sound gcloud environ ready typed
      (check (.createServiceAccount (kfpNamespace environ, t.2)) next) s := by
    refine sound_check hs hK ?_ ?_
    · intro s hs
      rw [perform]
      split
      · next habsent => exact .single (.ksa ht habsent.2)
      · exact .refl
    · intro s hs hsome
      by_cases habsent : kfpNamespace environ ∈ s.namespaces ∧
          s.serviceAccounts (kfpNamespace environ, t.2) = none
      · simpa [perform, habsent] using hnext _ (hK _ _ (.ksa ht habsent.2) hs)
      · simp [perform, habsent] at hsome
  refine guarded_call hs (fun s s' h => h.keeps hK) ?_
  intro s hs response s' hserve
  cases hserve with
  | fails => exact ⟨.refl, hcreate s hs⟩
  | lost =>
    rw [respond_get]
    exact ⟨.refl, hcreate s hs⟩
  | served =>
    have hsame : (respond gcloud s (.getServiceAccount (kfpNamespace environ, t.2))).2 = s := by
      rw [respond_get]
    rw [hsame]
    refine ⟨.refl, ?_⟩
    cases (respond gcloud s (.getServiceAccount (kfpNamespace environ, t.2))).1 with
    | none => exact hcreate s hs
    | some _ => exact hnext s hs

theorem sound_bindGsaAndKsa (ht : t ∈ targets environ) (hs : K s)
    (hK : ∀ s s', Change gcloud environ ready s s' → K s → K s')
    (hnext : ∀ s, K s → Bound environ t s → Sound gcloud environ ready typed next s) :
    Sound gcloud environ ready typed (bindGsaAndKsa environ t.1 t.2 next) s := by
  -- what is known behind the first command
  have hmember (s s' : Cloud) (h : Change gcloud environ ready s s')
      (hs : K s ∧ (gsaFull environ t.1, member environ t.2) ∈ s.members) :
      K s' ∧ (gsaFull environ t.1, member environ t.2) ∈ s'.members :=
    ⟨hK s s' h hs.1, h.member_mem hs.2⟩
  refine sound_check hs hK ?_ ?_
  · intro s hs
    rw [perform]
    split
    · exact .single (.member ht)
    · exact .refl
  · intro s hs hsome
    by_cases hthere : gsaFull environ t.1 ∈ s.accounts
    · have hafter : K (s.withMember (gsaFull environ t.1) (member environ t.2)) :=
        hK _ _ (.member ht) hs
      have hksa := sound_createKsa ht ⟨hafter, Finset.mem_insert_self _ _⟩ hmember fun _ hs =>
        sound_annotate ht hs hmember (fun _ hs => hs.2) fun _ hs hbound => hnext _ hs.1 hbound
      simpa [perform, hthere] using hksa
    · simp [perform, hthere] at hsome

theorem sound_targets {done rest : List (String × String)} (h : targets environ = done ++ rest)
    (hs : ∀ t ∈ done, Bound environ t s) :
    Sound gcloud environ ready typed
      (rest.foldr (fun t => bindGsaAndKsa environ t.1 t.2) (.done 0)) s := by
  have hmem (t : String × String) (ht : t ∈ done) : t ∈ targets environ :=
    h ▸ List.mem_append_left _ ht
  have hkept (s s' : Cloud) (hstep : Change gcloud environ ready s s')
      (hs : ∀ t ∈ done, Bound environ t s) : ∀ t ∈ done, Bound environ t s' :=
    fun t ht => (hs t ht).step (hmem t ht) hstep
  induction rest generalizing done s with
  | nil =>
    intro s' hs' _ _ t ht
    rw [h, List.append_nil] at ht
    exact hs'.keeps hkept hs t ht
  | cons t rest ih =>
    have ht : t ∈ targets environ := h ▸ List.mem_append_right _ List.mem_cons_self
    refine sound_bindGsaAndKsa ht hs hkept fun s hs hbound => ?_
    have hdone : ∀ t' ∈ done ++ [t], Bound environ t' s := by
      intro t' ht'
      rcases List.mem_append.mp ht' with ht' | ht'
      · exact hs t' ht'
      · rw [List.mem_singleton.mp ht']
        exact hbound
    have hall (t' : String × String) (ht' : t' ∈ done ++ [t]) : t' ∈ targets environ := by
      rw [h, List.append_cons]
      exact List.mem_append_left _ ht'
    exact ih (by rw [h, List.append_cons]) hdone hall
      fun s s' hstep hs t' ht' => (hs t' ht').step (hall t' ht') hstep

/-- What a run makes is one of these changes at a time. When it has gone through, everything is set
up. -/
theorem sound_setup (hs : K s) (hK : ∀ s s', Change gcloud environ ready s s' → K s → K s')
    (hL : ∀ s s', Change gcloud environ ready s s' → L s → L s')
    (hpresent : ∀ s, K s → (listed gcloud s (systemGsa environ)).Nonempty → L s)
    (hcreated : ∀ s, K s → L (s.withAccount ⟨gcloud.project, systemGsa environ⟩))
    (hready : ∀ s, L s → ready s) :
    Sound gcloud environ ready typed (setup environ typed) s := by
  by_cases hconfirmed : Confirmed environ typed
  · rw [setup_confirmed hconfirmed, bindings, bindEach_targets]
    refine sound_createGsa hs hK (fun s _ => .systemGsa) hpresent hcreated fun s hs => ?_
    refine sound_createGsa (L := fun _ => True) hs hL (fun s hs => .userGsa (hready s hs))
      (fun _ _ _ => trivial) (fun _ _ => trivial) fun s _ => ?_
    exact sound_targets (List.nil_append (targets environ)).symm (by simp)
  · obtain ⟨status, hdone⟩ := setup_not_confirmed hconfirmed
    rw [hdone]
    exact fun _ _ hyes => absurd hyes hconfirmed

/-- What runs of the script leave of a state. -/
structure Within (gcloud : Gcloud) (environ : Environ) (s s' : Cloud) : Prop where
  accounts : s.accounts ⊆ s'.accounts
  newAccounts : ∀ a ∈ s'.accounts, a ∈ s.accounts ∨
    a = ⟨gcloud.project, systemGsa environ⟩ ∨ a = ⟨gcloud.project, userGsa environ⟩
  members : s.members ⊆ s'.members
  newMembers : ∀ m ∈ s'.members, m ∈ s.members ∨
    ∃ t ∈ targets environ, m = (gsaFull environ t.1, member environ t.2)
  namespaces : s'.namespaces = s.namespaces
  present : ∀ key, s'.serviceAccounts key = none → s.serviceAccounts key = none
  serviceAccounts : ∀ key, (∀ t ∈ targets environ, key ≠ (kfpNamespace environ, t.2)) →
    s'.serviceAccounts key = s.serviceAccounts key

theorem Within.refl : Within gcloud environ s s where
  accounts := subset_rfl
  newAccounts _ := Or.inl
  members := subset_rfl
  newMembers _ := Or.inl
  namespaces := rfl
  present _ := id
  serviceAccounts _ _ := rfl

theorem Within.account {a : Account} (h : Within gcloud environ s s')
    (ha : a = ⟨gcloud.project, systemGsa environ⟩ ∨ a = ⟨gcloud.project, userGsa environ⟩) :
    Within gcloud environ s (s'.withAccount a) :=
  { h with
    accounts := h.accounts.trans (Finset.subset_insert a s'.accounts)
    newAccounts := by
      intro b hb
      rcases Finset.mem_insert.mp hb with rfl | hb
      · exact Or.inr ha
      · exact h.newAccounts b hb }

theorem Within.serviceAccount {annotated : Option String} (h : Within gcloud environ s s')
    (ht : t ∈ targets environ) : Within gcloud environ s
      (s'.withServiceAccount (kfpNamespace environ, t.2) annotated) :=
  { h with
    present := by
      intro key hnone
      by_cases hkey : key = (kfpNamespace environ, t.2)
      · subst hkey
        simp at hnone
      · rw [Cloud.serviceAccounts_other hkey] at hnone
        exact h.present key hnone
    serviceAccounts := by
      intro key hkey
      rw [Cloud.serviceAccounts_other (hkey t ht)]
      exact h.serviceAccounts key hkey }

theorem Within.step (h : Within gcloud environ s s') {s'' : Cloud}
    (hstep : Change gcloud environ ready s' s'') : Within gcloud environ s s'' := by
  cases hstep with
  | systemGsa => exact h.account (Or.inl rfl)
  | userGsa => exact h.account (Or.inr rfl)
  | @member t ht =>
    exact { h with
      members := h.members.trans (Finset.subset_insert _ s'.members)
      newMembers := by
        intro m hm
        rcases Finset.mem_insert.mp hm with rfl | hm
        · exact Or.inr ⟨t, ht, rfl⟩
        · exact h.newMembers m hm }
  | ksa ht | annotated ht => exact h.serviceAccount ht

theorem Changes.within (h : Changes gcloud environ ready s s') : Within gcloud environ s s' :=
  h.keeps (K := Within gcloud environ s) (fun _ _ hstep hs => hs.step hstep) .refl

end

section
variable {gcloud : Gcloud} {environ : Environ} {cloud cloud' : Cloud}

/-- The account that the first command makes, and the one that the second makes. -/
def systemMade (gcloud : Gcloud) (environ : Environ) : Account := ⟨gcloud.project, systemGsa environ⟩

def userMade (gcloud : Gcloud) (environ : Environ) : Account := ⟨gcloud.project, userGsa environ⟩

/-- How far the two accounts are, when the second is made behind the first. -/
inductive Made (gcloud : Gcloud) (environ : Environ) (cloud s : Cloud) : Prop where
  | neither (h : s.accounts = cloud.accounts)
  | system (h : s.accounts = insert (systemMade gcloud environ) cloud.accounts)
  | both (h : s.accounts =
      insert (userMade gcloud environ) (insert (systemMade gcloud environ) cloud.accounts))

variable {s s' : Cloud}

theorem Made.step (hstep : Change gcloud environ (systemMade gcloud environ ∈ ·.accounts) s s')
    (h : Made gcloud environ cloud s) : Made gcloud environ cloud s' := by
  cases hstep with
  | systemGsa =>
    cases h with
    | neither h => exact .system (congrArg (insert _) h)
    | system h => exact .system ((congrArg (insert _) h).trans (Finset.insert_idem _ _))
    | both h =>
      refine .both ((congrArg (insert _) h).trans ?_)
      rw [Finset.insert_comm, ← systemMade, Finset.insert_idem]
  | userGsa hready =>
    cases h with
    | neither h =>
      have hmem : systemMade gcloud environ ∈ cloud.accounts := h ▸ hready
      refine .both ((congrArg (insert _) h).trans ?_)
      rw [Finset.insert_eq_of_mem hmem, userMade]
    | system h => exact .both (congrArg (insert _) h)
    | both h => exact .both ((congrArg (insert _) h).trans (Finset.insert_idem _ _))
  | member | ksa | annotated =>
    cases h with
    | neither h => exact .neither h
    | system h => exact .system h
    | both h => exact .both h

section
variable (hproject : gcloud.project = value environ "PROJECT_ID")
  (hsystem : Found gcloud environ (systemGsa environ) cloud)
  (huser : Found gcloud environ (userGsa environ) (withGsa gcloud (systemGsa environ) cloud))
include hproject

theorem gsaFull_made : gsaFull environ (systemGsa environ) = systemMade gcloud environ := by
  rw [gsaFull, systemMade, hproject]

include hsystem

/-- An account that hides the first one is the first one, or it is there, too. -/
theorem system_of_listed (h : (listed gcloud cloud (systemGsa environ)).Nonempty) :
    systemMade gcloud environ ∈ cloud.accounts := by
  rcases hsystem.there with hthere | ⟨_, hnot⟩
  · rwa [gsaFull_made hproject] at hthere
  · exact absurd h hnot

theorem withGsa_system : (withGsa gcloud (systemGsa environ) cloud).accounts =
    insert (systemMade gcloud environ) cloud.accounts := by
  by_cases hlisted : (listed gcloud cloud (systemGsa environ)).Nonempty
  · rw [withGsa, if_pos hlisted, Finset.insert_eq_of_mem (system_of_listed hproject hsystem hlisted)]
  · rw [withGsa, if_neg hlisted]
    rfl

include huser

theorem withGsas_accounts : (withGsas gcloud environ cloud).accounts =
    insert (userMade gcloud environ) (insert (systemMade gcloud environ) cloud.accounts) := by
  rw [← withGsa_system hproject hsystem, withGsas]
  by_cases hlisted :
      (listed gcloud (withGsa gcloud (systemGsa environ) cloud) (userGsa environ)).Nonempty
  · rcases huser.there with hthere | ⟨_, hnot⟩
    · rw [gsaFull, ← hproject] at hthere
      rw [withGsa_of_mem hthere, userMade, Finset.insert_eq_of_mem hthere]
    · exact absurd hlisted hnot
  · rw [withGsa, if_neg hlisted]
    rfl

/-- Wherever other runs have stopped, the accounts are the same behind the first commands. -/
theorem Made.withGsas_accounts (h : Made gcloud environ cloud s) :
    (withGsas gcloud environ s).accounts = (withGsas gcloud environ cloud).accounts := by
  cases h with
  | neither h => exact withGsa_congr (withGsa_congr h)
  | system h =>
    have hmem : ⟨gcloud.project, systemGsa environ⟩ ∈ s.accounts := by
      rw [h]
      exact Finset.mem_insert_self _ _
    refine withGsa_congr ?_
    rw [withGsa_of_mem hmem, withGsa_system hproject hsystem, h]
  | both h =>
    have hmem : ⟨gcloud.project, systemGsa environ⟩ ∈ s.accounts := by
      rw [h]
      exact Finset.mem_insert_of_mem (Finset.mem_insert_self _ _)
    have hmem' : ⟨gcloud.project, userGsa environ⟩ ∈ s.accounts := by
      rw [h]
      exact Finset.mem_insert_self _ _
    rw [withGsas, withGsa_of_mem hmem, withGsa_of_mem hmem',
      WorkloadIdentity.withGsas_accounts hproject hsystem huser, h]

omit huser in
/-- The first of the two commands finds at least what it would have found before the other runs. -/
theorem Made.subset_withGsa (h : Made gcloud environ cloud s) :
    (withGsa gcloud (systemGsa environ) cloud).accounts ⊆
      (withGsa gcloud (systemGsa environ) s).accounts := by
  have hleave : s.accounts ⊆ (withGsa gcloud (systemGsa environ) s).accounts :=
    fun account haccount => mem_withGsa.mpr (Or.inl haccount)
  cases h with
  | neither h => exact (withGsa_congr h).ge
  | system h =>
    rw [withGsa_system hproject hsystem, ← h]
    exact hleave
  | both h =>
    rw [withGsa_system hproject hsystem]
    refine subset_trans ?_ hleave
    rw [h]
    exact Finset.subset_insert _ _

end

theorem Passes.mono (hsub : s.accounts ⊆ s'.accounts) (h : Passes gcloud name s) :
    Passes gcloud name s' :=
  h.imp_left fun hlisted => hlisted.mono (Finset.filter_subset_filter _ hsub)

theorem Bindable.within (hwithin : Within gcloud environ cloud s) {t : String × String}
    (h : Bindable gcloud environ cloud t) : Bindable gcloud environ s t := by
  refine ⟨h.member, fun hnone => ?_, h.annotation⟩
  rw [hwithin.namespaces]
  exact h.ksa (hwithin.present _ hnone)

/-- What a run for itself would go through, it also does behind other runs. -/
theorem Goes.within (hproject : gcloud.project = value environ "PROJECT_ID")
    (hwithin : Within gcloud environ cloud s) (hmade : Made gcloud environ cloud s)
    (h : Goes gcloud environ cloud) : Goes gcloud environ s := by
  obtain ⟨hsystem, huser, hall⟩ := goes_iff.mp h
  have haccounts := hmade.withGsas_accounts hproject hsystem huser
  refine ⟨h.system.mono hwithin.accounts, h.user.mono (hmade.subset_withGsa hproject hsystem),
    fun t ht => ⟨bindable_withGsas.mpr ((hall t ht).within hwithin), ?_⟩⟩
  rw [haccounts]
  exact (h.takes t ht).account

/-- What a run for itself makes of a state that other runs have left. -/
theorem alone_bindings_within (hproject : gcloud.project = value environ "PROJECT_ID")
    (hwithin : Within gcloud environ cloud s) (hmade : Made gcloud environ cloud s)
    (h : (bindings environ).alone (respond gcloud) cloud = (0, cloud')) :
    (bindings environ).alone (respond gcloud) s = (0, cloud') := by
  obtain ⟨hgoes, rfl⟩ := alone_bindings.mp h
  obtain ⟨hsystem, huser, _⟩ := goes_iff.mp hgoes
  refine alone_bindings.mpr ⟨hgoes.within hproject hwithin hmade, ?_⟩
  symm
  refine foldl_bound_eq (hmade.withGsas_accounts hproject hsystem huser) ?_ (fun m => ?_)
    fun key hkey => ?_
  · rw [withGsas_namespaces, withGsas_namespaces, hwithin.namespaces]
  · rw [withGsas_members, withGsas_members]
    constructor
    · rintro (hm | hgoal)
      · exact hwithin.newMembers m hm
      · exact Or.inr hgoal
    · exact Or.imp_left (@hwithin.members m)
  · rw [withGsas_serviceAccounts, withGsas_serviceAccounts]
    exact hwithin.serviceAccounts key hkey

end

variable {π : Type} [DecidableEq π]

/-- Any number of runs of the script in one environment, before their first command. -/
def start (environ : Environ) (typed : π → List Char) (cloud : Cloud) :
    World π Cloud Request Answer Nat :=
  ⟨cloud, fun p => setup environ (typed p)⟩

variable {gcloud : Gcloud} {environ : Environ} {typed : π → List Char} {again : List Char}
  {cloud cloud' : Cloud}
  {events : List (Event π Request Answer)} {w : World π Cloud Request Answer Nat}

/-- However runs of the script fail, are cut off and overlap, they change nothing but what they are to
set up, and all of that is set up as soon as one of them has gone through. -/
theorem setup_together (h : Trace (server gcloud) (start environ typed cloud) events w) :
    Within gcloud environ cloud w.state ∧
      ∀ p, Confirmed environ (typed p) → w.clients p = .done 0 →
        ∀ t ∈ targets environ, Bound environ t w.state := by
  have hsound (p : π) :
      Sound gcloud environ (fun _ => True) (typed p) (setup environ (typed p)) cloud :=
    sound_setup (K := fun _ => True) (L := fun _ => True) trivial (fun _ _ _ _ => trivial)
      (fun _ _ _ _ => trivial) (fun _ _ _ => trivial) (fun _ _ => trivial) fun _ _ => trivial
  have houtside (s s' : Cloud) (hs : (server gcloud).outside s s') :
      Changes gcloud environ (fun _ => True) s s' := by
    rw [show s' = s from hs]
  refine ⟨(h.guarded houtside hsound).1.within, fun p hconfirmed hdone => ?_⟩
  exact h.guarded_result houtside hsound hdone hconfirmed rfl

theorem sample_alone : (setup sampleEnviron ['Y']).alone (respond sampleGcloud) sampleCloud =
    (0, (targets sampleEnviron).foldl (bound sampleEnviron)
      (withGsas sampleGcloud sampleEnviron sampleCloud)) := by
  rw [setup_confirmed sample_confirmed]
  exact alone_bindings.mpr ⟨goes_iff.mpr sample_found, rfl⟩

/-- A run that nothing keeps from its end. -/
theorem setup_together_sample : ∃ events w, Trace (server sampleGcloud)
      (start sampleEnviron (fun _ : Unit => ['Y']) sampleCloud) events w ∧ w.clients () = .done 0 ∧
    Within sampleGcloud sampleEnviron sampleCloud w.state ∧
      ∀ t ∈ targets sampleEnviron, Bound sampleEnviron t w.state := by
  obtain ⟨events, w, htrace, hdone, _⟩ := Trace.exists_alone (fun _ _ => Serves.served)
    (.nil : Trace (server sampleGcloud)
      (start sampleEnviron (fun _ : Unit => ['Y']) sampleCloud) [] _) ()
  rw [show (start sampleEnviron (fun _ : Unit => ['Y']) sampleCloud).clients () =
    setup sampleEnviron ['Y'] from rfl, show (start sampleEnviron (fun _ : Unit => ['Y'])
      sampleCloud).state = sampleCloud from rfl, sample_alone] at hdone
  obtain ⟨hwithin, hbound⟩ := setup_together htrace
  exact ⟨_, w, htrace, hdone, hwithin, hbound () sample_confirmed hdone⟩

/-- When a run would go through without failures, then it also does so behind any number of runs that
have failed, been cut off or overlapped, and it ends in the same state. -/
theorem setup_again (hproject : gcloud.project = value environ "PROJECT_ID")
    (hconfirmed : Confirmed environ again)
    (hwould : (setup environ again).alone (respond gcloud) cloud = (0, cloud'))
    (h : Trace (server gcloud) (start environ typed cloud) events w) :
    (setup environ again).alone (respond gcloud) w.state = (0, cloud') := by
  rw [setup_confirmed hconfirmed] at hwould ⊢
  obtain ⟨hsystem, _, _⟩ := goes_iff.mp (alone_bindings.mp hwould).1
  -- the second account is made by a run that has seen to the first
  have hsound (p : π) : Sound gcloud environ (systemMade gcloud environ ∈ ·.accounts) (typed p)
      (setup environ (typed p)) cloud := by
    refine sound_setup (K := Made gcloud environ cloud) (L := (systemMade gcloud environ ∈ ·.accounts))
      (.neither rfl) (fun _ _ hstep hs => hs.step hstep) ?_ ?_ ?_ fun _ => id
    · intro s s' hstep hs
      cases hstep with
      | systemGsa | userGsa => exact Finset.mem_insert_of_mem hs
      | member | ksa | annotated => exact hs
    · intro s hs hlisted
      cases hs with
      | neither hs =>
        rw [listed_congr hs] at hlisted
        rw [hs]
        exact system_of_listed hproject hsystem hlisted
      | system hs =>
        rw [hs]
        exact Finset.mem_insert_self _ _
      | both hs =>
        rw [hs]
        exact Finset.mem_insert_of_mem (Finset.mem_insert_self _ _)
    · exact fun s _ => Finset.mem_insert_self _ _
  have houtside (s s' : Cloud) (hs : (server gcloud).outside s s') :
      Changes gcloud environ (systemMade gcloud environ ∈ ·.accounts) s s' := by
    rw [show s' = s from hs]
  have hchanges := (h.guarded houtside hsound).1
  have hmade : Made gcloud environ cloud w.state :=
    hchanges.keeps (fun _ _ hstep hs => hs.step hstep) (.neither rfl)
  exact alone_bindings_within hproject hchanges.within hmade hwould

/-- A run that does not hear that it has made the first account. -/
theorem setup_again_sample : ∃ events w cloud', Trace (server sampleGcloud)
      (start sampleEnviron (fun _ : Unit => ['Y']) sampleCloud) events w ∧ w.clients () = .done 1 ∧
    w.state.accounts = {⟨"my-project", "my-kfp-system"⟩} ∧
      (setup sampleEnviron ['Y']).alone (respond sampleGcloud) w.state = (0, cloud') := by
  have hstart : Trace (server sampleGcloud)
      (start sampleEnviron (fun _ : Unit => ['Y']) sampleCloud) [] _ := .nil
  have hlist := hstart.snoc (.call (p := ()) rfl .served)
  have hcreate := hlist.snoc (.call (p := ()) rfl .lost)
  exact ⟨_, _, _, hcreate, rfl, rfl, setup_again rfl sample_confirmed sample_alone hcreate⟩

end Manifests.WorkloadIdentity
