/-
TrustModelEdge.KeyTheorems — which keys an edge signs with.

A key comes to an edge in the answer to an enrollment or a rotation. From there it
goes to memory and to `key.pem`, and every later process signs with what it reads
there. Much else is written near it: policies under names that nothing checks, a
queue that may be set aside. None of it can end at a file of that name, so the file
and the memory hold keys that were issued (`signs_with_issued_keys`), or what a write
that broke off has left of one.
-/
import TrustModelEdge.AppTheorems
import TrustModelEdge.Policy.FrameTheorems
import TrustModelEdge.Py.TornRules

namespace TrustModelEdge

open Py Py.DiskM OAuth Lib Policy Telemetry

/-! ## The keys of a run -/

def keyPlace (dir : Path) : Path := dir ++ [keyFile]

/-- The heartbeats of a step. -/
def LifeInput.ticks : LifeInput → List HeartbeatTick
  | .launch l => l.ticks
  | .heartbeat t => [t]
  | _ => []

/-- What befalls the writes of credentials in a step. -/
def LifeInput.credentialFaults : LifeInput → List Fault
  | .launch l => l.boot.faults ++ l.ticks.flatMap (fun t => t.env.faults)
  | .heartbeat t => t.env.faults
  | _ => []

/-- The texts that there may be in `key.pem` after these inputs. -/
inductive KeyText (lib : HeartbeatLib) (dir : Path) (d : Disk) (inputs : List LifeInput) :
    Str → Prop
  /-- It was there from the start. -/
  | found {body : FileBody} {text : Str} (hfile : d.file? (keyPlace dir) = some body)
      (h : body.text = some text) : KeyText lib dir d inputs text
  | enrolled {l : Launch} {bundle : EnrollBundle} {text : Str} (hl : .launch l ∈ inputs)
      (h : enroll lib.fromisoformat l.boot.answer = .ok bundle)
      (hkey : bundle.keyPem = .str text) : KeyText lib dir d inputs text
  | rotated {i : LifeInput} {t : HeartbeatTick} {bundle : RotateBundle} {text : Str}
      (hi : i ∈ inputs) (ht : t ∈ i.ticks) (h : t.Rotates lib bundle)
      (hkey : bundle.keyPem = .str text) : KeyText lib dir d inputs text
  /-- A write that broke off left it. -/
  | torn {i : LifeInput} {f : Fault} {text : Str} (hi : i ∈ inputs)
      (hf : f ∈ i.credentialFaults) (h : f.left = some text) : KeyText lib dir d inputs text
  /-- The file is truncated first, and a text with surrogates is not written. -/
  | empty : KeyText lib dir d inputs []

/-- A key of the run: one of its texts, as it came or as it is read back. -/
def IssuedKey (T : Str → Prop) (key : Str) : Prop :=
  ∃ text, T text ∧
    (key = text ∨ key = universalNewlines text ∨ key = strip (universalNewlines text))

/-! ## Names that are not that of the key -/

/-- No policy file and no temporary one has this path. -/
def NotJson (q : Path) : Prop :=
  ∀ x, q.getLast? ≠ some (fileName x) ∧ q.getLast? ≠ some (tmpName x)

theorem keyPlace_last (dir : Path) : (keyPlace dir).getLast? = some keyFile :=
  List.getLast?_concat

theorem keyPlace_notJson (dir : Path) : NotJson (keyPlace dir) := by
  intro x
  have hend : ∀ ext : Str, keyFile.getLast? ≠ ext.getLast? → ext ≠ [] → keyFile ≠ x ++ ext := by
    intro ext hlast hne h
    rw [h, List.getLast?_append_of_ne_nil x hne] at hlast
    exact hlast rfl
  rw [keyPlace_last]
  exact ⟨fun h => hend ".json" (by decide) (by decide) (Option.some.inj h),
    fun h => hend ".json.tmp" (by decide) (by decide) (Option.some.inj h)⟩

section Policies

variable {wire : PolicyWire} {dir q : Path} {T L : Str → Prop}

theorem NotJson.file {d : Disk} {root : Path} {init : List Str} {x : Str} (hq : NotJson q) :
    resolve d { root := root, parts := init ++ [fileName x] } ≠ .ok q :=
  fun h => (hq x).1 (resolve_last (fileName_ne_up x) h)

theorem NotJson.tmp {d : Disk} {root : Path} {init : List Str} {x : Str} (hq : NotJson q) :
    resolve d { root := root, parts := init ++ [tmpName x] } ≠ .ok q :=
  fun h => (hq x).2 (resolve_last (tmpName_ne_up x) h)

/-- A file written aside at the path of some `*.json`. -/
theorem maintains_writeAside (hq : NotJson q) {target : PurePath} {root : Path} {init : List Str}
    {x y text : Str} (htarget : target = { root := root, parts := init ++ [fileName x] })
    (htmp : target.withSuffix tmpSuffix = { root := root, parts := init ++ [tmpName y] }) :
    Maintains (FileIn q T) L (writeAside target text) := by
  unfold writeAside
  simp only
  rw [htmp, htarget]
  refine .bind (.writeText fun d h => absurd h hq.tmp) fun _ => ?_
  exact .replaceFile (fun _ => hq.tmp) (fun _ => hq.file)

theorem maintains_persistPolicies (hq : NotJson q) (policies : List EdgePolicy) :
    Maintains (FileIn q T) L (persistPolicies wire dir policies) := by
  induction policies with
  | nil => exact .pure _
  | cons p ps ih =>
    obtain ⟨root, init, x, hpath, htmp⟩ := policyPath_parts dir p.bundle.name
    refine .bind (.lift _) fun text => ?_
    exact .bind (maintains_writeAside hq hpath htmp) fun _ => ih

theorem maintains_dropOrphans (hq : NotJson q) {names files : List Str}
    (hfiles : ∀ f ∈ files, (".json" : Str).isSuffixOf f = true) :
    Maintains (FileIn q T) L (dropOrphans dir names files) := by
  induction files with
  | nil => exact .pure _
  | cons f fs ih =>
    have hrest := ih fun g hg => hfiles g (List.mem_cons_of_mem _ hg)
    refine .bind ?_ fun _ => hrest
    unfold dropOrphan
    split
    · exact .pure _
    · obtain ⟨x, hx⟩ := List.isSuffixOf_iff_suffix.mp (hfiles f List.mem_cons_self)
      refine .ignoreOsError (.unlink fun d => ?_)
      have hname : child (policiesDir dir) f =
          { root := policiesDir dir, parts := [] ++ [fileName x] } := by
        rw [child, List.nil_append, fileName, hx]
      show resolve d (child (policiesDir dir) f) ≠ .ok q
      rw [hname]
      exact hq.file

theorem maintains_writeChild (hq : NotJson q) {name text : Str} (hname : name ≠ []) :
    Maintains (FileIn q T) L (writeAside (child dir (fileName name)) text) := by
  have htmp : (child dir (fileName name)).withSuffix tmpSuffix =
      { root := dir, parts := [] ++ [tmpName name] } := withSuffix_fileName hname
  have hpath : child dir (fileName name) = { root := dir, parts := [] ++ [fileName name] } := rfl
  exact maintains_writeAside hq hpath htmp

theorem maintains_persistManifest (hq : NotJson q) (policies : List EdgePolicy)
    (primaryName : Option Str) :
    Maintains (FileIn q T) L (persistManifest wire dir policies primaryName) := by
  refine .bind (.makeDirs _) fun _ => .bind (.makeDirs _) fun _ => ?_
  refine .bind (maintains_persistPolicies hq policies) fun _ => .bind .getDisk fun disk => ?_
  refine .bind (maintains_dropOrphans hq fun f hf => ?_) fun _ => ?_
  · exact (List.mem_filter.mp hf).2
  · rw [manifestPath_eq]
    exact maintains_writeChild hq (by decide)

theorem maintains_persistLegacy (hq : NotJson q) (p : EdgePolicy) :
    Maintains (FileIn q T) L (persistLegacy wire dir p) := by
  refine .bind (.makeDirs _) fun _ => .bind (.lift _) fun text => ?_
  rw [legacyPath_eq]
  exact maintains_writeChild hq (by decide)

/-- A sync leaves a file of another name as it is, whatever becomes of its writes. -/
theorem fileIn_sync [PyRuntime] (hq : NotJson q) {body : BodyWire} {cfg : Settings}
    {c : PolicyCache} {s : Routes.ProbedSync} (h : FileIn q T s.env.disk) :
    FileIn q T (s.run body cfg c).env.disk := by
  unfold Routes.ProbedSync.run
  cases hp : plannedSwap s.compileFails body s.gateway s.now cfg.stateDir
      s.multiPolicyEnabled with
  | none =>
    rw [(unplanned hp).2.1]
    exact h
  | some swap =>
    rw [syncOnceCompiling_planned hp, swapped_env]
    have hswap : Maintains (FileIn q T) (fun _ => True) swap.2 := by
      rcases plannedSwap_some hp with ⟨-, policies, name, -, -, -, rfl⟩ | ⟨-, p, -, -, rfl⟩
      · exact maintains_persistManifest hq policies _
      · exact maintains_persistLegacy hq p
    exact (hswap s.env h (leaving_true _)).1

end Policies

/-! ## Credentials -/

section Credentials

variable {lib : HeartbeatLib} {dir : Path} {T : Str → Prop} {d : Disk}

theorem credentialPath_ne {f : CredentialFile} (hf : f ≠ .key) :
    resolve d (credentialPath dir f.name) ≠ .ok (keyPlace dir) := by
  rw [credentialPath_eq]
  intro h
  obtain ⟨-, -, hplace⟩ := (resolve_child f.name_ne_up).mp h
  have hname : keyFile = f.name := by simpa [keyPlace] using hplace
  exact hf (CredentialFile.name_inj (show CredentialFile.key.name = f.name from hname)).symm

/-- A write of any value but the key. -/
theorem maintains_writeOther {f : CredentialFile} (hf : f ≠ .key) (v : Json) :
    Maintains (FileIn (keyPlace dir) T) T (writeValue (credentialPath dir f.name) v) := by
  cases v with
  | str s =>
    exact .bind (.writeText fun d h => absurd h (credentialPath_ne hf)) fun _ => .pure _
  | null | bool | int | float | arr | obj => exact .raise _

/-- **Persisting a bundle** brings its key to the file, or a part of it. -/
theorem maintains_persistRotated {creds : LoadedCredentials} {bundle : RotateBundle}
    (hkey : ∀ s, bundle.keyPem = .str s → T s) (hempty : T []) :
    Maintains (FileIn (keyPlace dir) T) T (persistRotated lib dir creds bundle) := by
  have hwrite : Maintains (FileIn (keyPlace dir) T) T
      (writeValue (credentialPath dir keyFile) bundle.keyPem) := by
    cases hv : bundle.keyPem with
    | str s => exact .bind (.writeText fun _ _ => ⟨hkey s hv, hempty, fun _ h => h⟩) fun _ => .pure _
    | null | bool | int | float | arr | obj => exact .raise _
  refine .bind (.makeDirs _) fun _ => ?_
  refine .bind (maintains_writeOther (f := .cert) (by decide) _) fun certPem => ?_
  refine .bind hwrite fun keyPem => ?_
  refine .bind (.operation (fun _ d d' hd h => ?_) fun _ _ _ hd _ => hd) fun _ => ?_
  · obtain rfl := Except.ok.inj h
    exact hd
  refine .bind (maintains_writeOther (f := .ca) (by decide) _) fun caPem => ?_
  refine .bind (.writeText fun d h => ?_) fun _ => .pure _
  exact absurd h (credentialPath_ne (f := .meta_) (by decide))

theorem raising_ok {α : Type} {r : Except Exc α} {a : α} (h : raising r = .ok a) : r = .ok a := by
  cases r with
  | ok b => exact congrArg Except.ok (Except.ok.inj h)
  | error e => cases h

/-- A cert-JWT is signed with the key that the token route loads. -/
theorem mint_key {jwt : JwtLib} {json : JsonText} {decodeError : Str → Str} {now : Rat}
    {edgeId : Option Str} {ttlSeconds : Int} {token : Str}
    (h : mintCertJwt jwt json decodeError now d dir edgeId ttlSeconds = .ok token) :
    ∃ payload key, loadPrivateKeyPem d dir = .ok key ∧ jwt.encode payload key = .ok token := by
  obtain ⟨⟨key, id⟩, hsign, hmint⟩ := bind_eq_ok.mp h
  obtain ⟨key', hkey, hsign⟩ := bind_eq_ok.mp hsign
  have hsame : key' = key := by
    split at hsign
    · cases hsign
      rfl
    · obtain ⟨_, -, hsign⟩ := bind_eq_ok.mp hsign
      obtain ⟨_, -, hsign⟩ := bind_eq_ok.mp hsign
      cases hsign
      rfl
  rw [← hsame] at hmint
  exact ⟨_, key', hkey, raising_ok hmint⟩

/-- What is read at the path of the key. -/
theorem readText_key {s : Str} (hd : FileIn (keyPlace dir) T d)
    (h : readText d (credentialPath dir keyFile) = .ok s) :
    ∃ text, T text ∧ s = universalNewlines text := by
  have hpath : credentialPath dir keyFile = child dir keyFile := credentialPath_eq dir .key
  obtain ⟨body, hbody, hs⟩ := bind_eq_ok.mp h
  have hfile : d.file? (keyPlace dir) = some body := by
    unfold fileAt at hbody
    rw [hpath] at hbody
    split at hbody
    · cases hbody
    · rename_i place hplace
      obtain ⟨-, -, rfl⟩ := (resolve_child (CredentialFile.name_ne_up .key)).mp hplace
      split at hbody
      · cases hbody
      · cases hbody
      · rename_i hl
        obtain rfl := Except.ok.inj hbody
        exact FileTree.file?_of_lookup hl
  split at hs
  · cases hs
  · rename_i text htext
    exact ⟨text, hd body text hfile htext, (Except.ok.inj hs).symm⟩

end Credentials

/-! ## Ticks and boots -/

/-- What the tick may write are texts of the run. -/
structure HeartbeatTick.Brings (lib : HeartbeatLib) (T : Str → Prop) (t : HeartbeatTick) :
    Prop where
  key : ∀ bundle s, t.Rotates lib bundle → bundle.keyPem = .str s → T s
  left : Leaving T t.env.faults

structure Boot.Brings (lib : HeartbeatLib) (T : Str → Prop) (b : Boot) : Prop where
  key : ∀ bundle s, enroll lib.fromisoformat b.answer = .ok bundle → bundle.keyPem = .str s → T s
  left : Leaving T b.faults

section Ticks

variable [PyRuntime] {lib : HeartbeatLib} {cfg : Settings} {T : Str → Prop}

omit [PyRuntime] in
theorem issued_of_persisted {creds l : LoadedCredentials} {bundle : RotateBundle} {dir : Path}
    {env env' : DiskEnv} (hkey : ∀ s, bundle.keyPem = .str s → T s)
    (hrun : (persistRotated lib dir creds bundle).run env = (.ok l, env')) :
    IssuedKey T l.keyPem := by
  obtain ⟨-, htext, -⟩ := persistRotated_ok hrun
  exact ⟨l.keyPem, hkey _ htext, Or.inl rfl⟩

theorem oneTick_keys {t : HeartbeatTick} {s : HeartbeatState} (hempty : T [])
    (ht : t.Brings lib T) (hd : FileIn (keyPlace cfg.stateDir) T t.env.disk)
    (hk : IssuedKey T s.credentials.keyPem) :
    FileIn (keyPlace cfg.stateDir) T (oneTick lib cfg t s).env.disk ∧
      IssuedKey T (oneTick lib cfg t s).state.credentials.keyPem := by
  have hfailed : ∀ (s' : HeartbeatState) e, s'.credentials = s.credentials →
      FileIn (keyPlace cfg.stateDir) T (callFailed s' t.env e).env.disk ∧
        IssuedKey T (callFailed s' t.env e).state.credentials.keyPem := by
    intro s' e hs
    obtain ⟨hcreds, henv⟩ := callFailed_keeps s' t.env e
    rw [hcreds, henv, hs]
    exact ⟨hd, hk⟩
  rcases oneTick_cases lib cfg t s with
    ⟨e, -, h⟩ | ⟨resp, -, ⟨-, h⟩ | ⟨-, ⟨e, -, h⟩ | ⟨bundle, hr, h⟩⟩⟩
  · rw [h]
    exact hfailed s e rfl
  · rw [h]
    exact ⟨hd, hk⟩
  · rw [h]
    exact hfailed (s.ticked t) e rfl
  · have hkey := fun text => ht.key bundle text (rotates_of_rotate hr)
    have hmaintains : Maintains (FileIn (keyPlace cfg.stateDir) T) T
        (persistRotated lib cfg.stateDir (s.ticked t).credentials bundle) :=
      maintains_persistRotated hkey hempty
    have hdisk := (hmaintains t.env hd ht.left).1
    rw [h]
    unfold rotatedTo
    split
    · rename_i creds env hrun
      rw [hrun] at hdisk
      exact ⟨hdisk, issued_of_persisted hkey hrun⟩
    · rename_i hrun
      rw [hrun] at hdisk
      exact ⟨hdisk, hk⟩
    · rename_i hrun
      rw [hrun] at hdisk
      exact ⟨hdisk, hk⟩

/-- The file and the memory hold keys of these texts. -/
def PodKeys (dir : Path) (T : Str → Prop) (p : RotatingPod) : Prop :=
  FileIn (keyPlace dir) T p.disk ∧ IssuedKey T p.loop.state.credentials.keyPem

theorem PodKeys.tick {p : RotatingPod} (h : PodKeys cfg.stateDir T p) (hempty : T [])
    {t : HeartbeatTick} (ht : t.Brings lib T) :
    PodKeys cfg.stateDir T (rotatingStep lib cfg p (.heartbeat (.tick t))).1 := by
  rcases rotatingStep_cases lib cfg p (.heartbeat (.tick t)) with
    ⟨d, hi, -⟩ | hstep | ⟨-, hstep⟩ | ⟨t', hi, -, hstep⟩
  · cases hi
  · rw [hstep]
    exact h
  · rw [hstep]
    exact h
  · obtain rfl : t = t' := by simpa using hi
    rw [hstep]
    exact oneTick_keys hempty ⟨ht.key, ht.left⟩ h.1 h.2

theorem beats_keys {lib : AppLib} {loop : HeartbeatLoop} {d : Disk}
    (h : PodKeys cfg.stateDir T { loop := loop, disk := d }) (hempty : T [])
    {ticks : List HeartbeatTick} (hts : ∀ t ∈ ticks, t.Brings lib.heartbeat T) :
    PodKeys cfg.stateDir T (beats lib cfg loop d ticks).1 := by
  have hstep : ∀ (p : RotatingPod) i, PodKeys cfg.stateDir T p →
      (∃ t, i = .heartbeat (.tick t) ∧ t.Brings lib.heartbeat T) →
      PodKeys cfg.stateDir T (rotatingStep lib.heartbeat cfg p i).1 := by
    rintro p i hp ⟨t, rfl, ht⟩
    exact hp.tick hempty ht
  refine final_inv (rotatingStep lib.heartbeat cfg) hstep h fun i hi => ?_
  obtain ⟨t, ht, rfl⟩ := List.mem_map.mp hi
  exact ⟨t, rfl, hts t ht⟩

end Ticks

section Boots

variable {lib : HeartbeatLib} {b : Boot} {d : Disk} {T : Str → Prop}

/-- The key of loaded credentials is what its file reads as. -/
theorem loadCredentials_key {dir : Path} {creds : LoadedCredentials}
    (h : loadCredentials lib.json lib.fromisoformat d dir = .ok (some creds)) :
    readText d (credentialPath dir keyFile) = .ok creds.keyPem := by
  unfold loadCredentials at h
  obtain ⟨found, -, h⟩ := bind_eq_ok.mp h
  split at h
  · split at h
    · split at h <;> cases h
    · rename_i m certPem keyPem caPem hread
      obtain ⟨creds', hbuild, h⟩ := bind_eq_ok.mp h
      cases h
      unfold readCredentialFiles at hread
      obtain ⟨_, -, hread⟩ := bind_eq_ok.mp hread
      obtain ⟨_, -, hread⟩ := bind_eq_ok.mp hread
      obtain ⟨_, -, hread⟩ := bind_eq_ok.mp hread
      obtain ⟨key, hkey, hread⟩ := bind_eq_ok.mp hread
      obtain ⟨_, -, hread⟩ := bind_eq_ok.mp hread
      cases hread
      obtain ⟨-, hcreds, -⟩ := buildCredentials_ok_iff.mp hbuild
      rw [hkey, hcreds]
  · cases h

theorem boot_keys (hempty : T []) (hb : b.Brings lib T)
    (hd : FileIn (keyPlace b.cfg.stateDir) T d) :
    FileIn (keyPlace b.cfg.stateDir) T (bootstrapIfNeeded lib b d).disk ∧
      ∀ creds, (bootstrapIfNeeded lib b d).ended = .returned creds → IssuedKey T creds.keyPem := by
  have henroll : ∀ token, FileIn (keyPlace b.cfg.stateDir) T (enrollWith lib b d token).disk ∧
      ∀ creds, (enrollWith lib b d token).ended = .returned creds → IssuedKey T creds.keyPem := by
    intro token
    unfold enrollWith
    dsimp only
    split
    · exact ⟨hd, fun _ h => by cases h⟩
    · exact ⟨hd, fun _ h => by cases h⟩
    · rename_i bundle hbundle
      have hkey := fun text => hb.key bundle text hbundle
      have hmaintains : Maintains (FileIn (keyPlace b.cfg.stateDir) T) T
          (persistRotated lib b.cfg.stateDir bundle.identity bundle.issued) :=
        maintains_persistRotated hkey hempty
      have hdisk := (hmaintains { disk := d, now := b.writtenAt, faults := b.faults } hd hb.left).1
      unfold enrolledTo
      split
      · rename_i creds env hrun
        rw [hrun] at hdisk
        refine ⟨hdisk, fun creds' h => ?_⟩
        obtain rfl := BootEnd.returned.inj h
        exact issued_of_persisted hkey hrun
      · rename_i hrun
        rw [hrun] at hdisk
        exact ⟨hdisk, fun _ h => by cases h⟩
      · rename_i hrun
        rw [hrun] at hdisk
        exact ⟨hdisk, fun _ h => by cases h⟩
  unfold bootstrapIfNeeded
  split
  · exact ⟨hd, fun _ h => by cases h⟩
  · rename_i existing hload
    split
    · exact ⟨hd, fun _ h => by cases h⟩
    · rename_i creds hvalid
      refine ⟨hd, fun creds' h => ?_⟩
      obtain rfl := BootEnd.returned.inj h
      obtain ⟨text, hT, hkey⟩ := readText_key hd (loadCredentials_key hload)
      exact ⟨text, hT, Or.inr (Or.inl hkey)⟩
    · split
      · exact ⟨hd, fun _ h => by cases h⟩
      · exact ⟨hd, fun _ h => by cases h⟩
      · exact henroll _

end Boots

/-! ## Launches -/

/-- The process writes its credentials here, and its heartbeats sign with such a key. -/
def Serving.HasKeys (dir : Path) (T : Str → Prop) (p : Serving) : Prop :=
  p.cfg.stateDir = dir ∧ ∀ loop ∈ p.heartbeat, IssuedKey T loop.state.credentials.keyPem

/-- The disk has such a key, and so does what came up, if anything did. -/
structure LaunchOutcome.HasKeys (dir : Path) (T : Str → Prop) (o : LaunchOutcome) : Prop where
  disk : FileIn (keyPlace dir) T o.disk
  process : ∀ p, o.process = .ok p → p.HasKeys dir T

/-- The queue is never at the path of the key. -/
theorem keyPlace_not_ownQueue {dir queueDir : Path} {stamp : Str} :
    ¬ OwnQueue queueDir stamp (keyPlace dir) := by
  have hne : ∀ s : Str, keyPlace dir ≠ queueDir ++ [dbFilename ++ s] := by
    intro s h
    obtain ⟨-, hname⟩ := List.append_inj' h rfl
    have hlen : keyFile.length = (dbFilename ++ s).length :=
      congrArg List.length (List.singleton_inj.mp hname)
    have hdb : dbFilename.length = 12 := by decide
    have hkey : keyFile.length = 7 := by decide
    rw [List.length_append, hdb, hkey] at hlen
    omega
  rintro (⟨s, -, h⟩ | ⟨s, -, h⟩)
  · exact hne s h
  · refine hne (s ++ ((".corrupt-" : Str) ++ stamp)) (h.trans ?_)
    simp [corruptPath]

section Launching

variable [PyRuntime] {lib : AppLib} {l : Launch} {T : Str → Prop} {c : PolicyCache} {d : Disk}
  {heartbeat : Option HeartbeatLoop}

omit [PyRuntime] in
theorem openQueue_keys (hsql : l.queue.OwnFiles l.queueDir)
    (hd : FileIn (keyPlace l.boot.cfg.stateDir) T d)
    (hk : ∀ loop ∈ heartbeat, IssuedKey T loop.state.credentials.keyPem) (policyWarmOk : Bool) :
    (openQueue l heartbeat policyWarmOk c d).HasKeys l.boot.cfg.stateDir T where
  disk := by
    rw [openQueue_disk]
    exact hd.of_file (openStore_frame hsql _ keyPlace_not_ownQueue)
  process := by
    intro p hp
    obtain ⟨hcfg, hheartbeat, -⟩ := openQueue_ok hp
    rw [Serving.HasKeys, hcfg, hheartbeat]
    exact ⟨rfl, hk⟩

theorem warmPolicies_keys (hsql : l.queue.OwnFiles l.queueDir)
    (hd : FileIn (keyPlace l.boot.cfg.stateDir) T d)
    (hk : ∀ loop ∈ heartbeat, IssuedKey T loop.state.credentials.keyPem) :
    (warmPolicies lib l heartbeat c d).HasKeys l.boot.cfg.stateDir T := by
  let s := l.sync.on l.boot.cfg d
  have hdisk : FileIn (keyPlace l.boot.cfg.stateDir) T (s.run lib.wire l.boot.cfg c).env.disk :=
    fileIn_sync (keyPlace_notJson _) hd
  unfold warmPolicies
  dsimp only
  split
  · exact openQueue_keys hsql hdisk hk _
  · exact ⟨hdisk, fun _ h => by cases h⟩

theorem beatAndWarm_keys (hsql : l.queue.OwnFiles l.queueDir) (hempty : T [])
    (hts : ∀ t ∈ l.ticks, t.Brings lib.heartbeat T)
    (hd : FileIn (keyPlace l.boot.cfg.stateDir) T d)
    (hk : ∀ loop ∈ heartbeat, IssuedKey T loop.state.credentials.keyPem) :
    (beatAndWarm lib l heartbeat c d).HasKeys l.boot.cfg.stateDir T := by
  unfold beatAndWarm
  cases heartbeat with
  | none => exact warmPolicies_keys hsql hd hk
  | some loop =>
    have hbeats : PodKeys l.boot.cfg.stateDir T (beats lib l.boot.cfg loop d l.ticks).1 :=
      beats_keys ⟨hd, hk loop rfl⟩ hempty hts
    dsimp only
    split
    · exact ⟨hbeats.1, fun _ h => by cases h⟩
    · have hkeys : ∀ loop' ∈ some (beats lib l.boot.cfg loop d l.ticks).1.loop,
          IssuedKey T loop'.state.credentials.keyPem := by
        intro loop' hloop'
        obtain rfl := Option.some.inj hloop'
        exact hbeats.2
      have hwarm : (warmPolicies lib l _ c _).HasKeys l.boot.cfg.stateDir T :=
        warmPolicies_keys hsql hbeats.1 hkeys
      exact ⟨hwarm.disk, hwarm.process⟩

theorem startPolicies_keys (hsql : l.queue.OwnFiles l.queueDir) (hempty : T [])
    (hts : ∀ t ∈ l.ticks, t.Brings lib.heartbeat T)
    (hd : FileIn (keyPlace l.boot.cfg.stateDir) T d)
    (hk : ∀ loop ∈ heartbeat, IssuedKey T loop.state.credentials.keyPem) :
    (startPolicies lib l heartbeat d).HasKeys l.boot.cfg.stateDir T := by
  unfold startPolicies
  dsimp only
  split
  · exact ⟨hd, fun _ h => by cases h⟩
  · exact beatAndWarm_keys hsql hempty hts hd hk

/-- **A launch** leaves keys of the run on the disk and in the process. -/
theorem launch_keys (hsql : l.queue.OwnFiles l.queueDir) (hempty : T [])
    (hb : l.boot.Brings lib.heartbeat T) (hts : ∀ t ∈ l.ticks, t.Brings lib.heartbeat T)
    (hd : FileIn (keyPlace l.boot.cfg.stateDir) T d) :
    (launch lib l d).HasKeys l.boot.cfg.stateDir T := by
  unfold launch
  split
  · exact startPolicies_keys hsql hempty hts hd fun _ h => by cases h
  · obtain ⟨hdisk, hcreds⟩ := boot_keys hempty hb hd
    dsimp only
    split
    · exact ⟨hdisk, fun _ h => by cases h⟩
    · exact ⟨hdisk, fun _ h => by cases h⟩
    · exact ⟨hdisk, fun _ h => by cases h⟩
    · rename_i creds hended
      have hkeys : ∀ loop ∈ (some { state := { credentials := creds } } : Option HeartbeatLoop),
          IssuedKey T loop.state.credentials.keyPem := by
        intro loop hloop
        obtain rfl := Option.some.inj hloop
        exact hcreds creds hended
      have hstart : (startPolicies lib l _ _).HasKeys l.boot.cfg.stateDir T :=
        startPolicies_keys hsql hempty hts hdisk hkeys
      exact ⟨hstart.disk, hstart.process⟩

end Launching

/-! ## Every life -/

/-- The disk has such a key, and so does the process that is there. -/
structure Life.HasKeys (dir : Path) (T : Str → Prop) (x : Life) : Prop where
  disk : FileIn (keyPlace dir) T x.disk
  process : ∀ p ∈ x.process, p.HasKeys dir T

/-- What the step may write as a key are texts of the run. -/
structure LifeInput.Brings (lib : HeartbeatLib) (T : Str → Prop) (i : LifeInput) : Prop where
  boot : ∀ l, i = .launch l → l.boot.Brings lib T
  ticks : ∀ t ∈ i.ticks, t.Brings lib T

/-- The step is of the pod with this state directory; what else runs there leaves the
key alone, and SQLite touches its own files only. -/
def LifeInput.LeavesKey (dir : Path) (x : Life) : LifeInput → Prop
  | .launch l => l.boot.cfg.stateDir = dir ∧ l.queue.OwnFiles l.queueDir
  | .others d _ => d.file? (keyPlace dir) = x.disk.file? (keyPlace dir)
  | .heartbeat _ | .sync _ | .shutdown | .kill => True

section Living

variable [PyRuntime] {lib : AppLib} {dir : Path} {T : Str → Prop} {x : Life}

omit [PyRuntime] in
theorem LaunchOutcome.HasKeys.life {o : LaunchOutcome} (h : o.HasKeys dir T) :
    o.life.1.HasKeys dir T := by
  unfold LaunchOutcome.life
  split
  · rename_i p hp
    exact ⟨h.disk, fun q hq => h.process q (hp.trans (congrArg _ (Option.some.inj hq)))⟩
  · exact ⟨h.disk, fun _ hq => by cases hq⟩

theorem Serving.HasKeys.beat {p : Serving} {d : Disk} {t : HeartbeatTick} (h : p.HasKeys dir T)
    (hd : FileIn (keyPlace dir) T d) (hempty : T []) (ht : t.Brings lib.heartbeat T) :
    (p.beat lib d t).1.HasKeys dir T := by
  obtain ⟨rfl, hk⟩ := h
  unfold Serving.beat
  split
  · exact ⟨hd, fun q hq => by
      obtain rfl := Option.some.inj hq
      exact ⟨rfl, hk⟩⟩
  · rename_i loop hloop
    have hbeats : PodKeys p.cfg.stateDir T (beats lib p.cfg loop d [t]).1 :=
      beats_keys ⟨hd, hk loop hloop⟩ hempty (by simpa using ht)
    dsimp only
    split
    · exact ⟨hbeats.1, fun _ hq => by cases hq⟩
    · refine ⟨hbeats.1, fun q hq => ?_⟩
      obtain rfl := Option.some.inj hq
      refine ⟨rfl, fun loop' hloop' => ?_⟩
      obtain rfl := Option.some.inj hloop'
      exact hbeats.2

theorem Serving.HasKeys.refresh {p : Serving} {d : Disk} {s : Routes.ProbedSync}
    (h : p.HasKeys dir T) (hd : FileIn (keyPlace dir) T d) :
    (p.refresh lib d s).1.HasKeys dir T := by
  have hsync : FileIn (keyPlace dir) T ((s.on p.cfg d).run lib.wire p.cfg p.sync.cache).env.disk :=
    fileIn_sync (keyPlace_notJson dir) hd
  unfold Serving.refresh
  split
  · exact ⟨hd, fun q hq => by
      obtain rfl := Option.some.inj hq
      exact h⟩
  · dsimp only
    split
    · exact ⟨hsync, fun _ hq => by cases hq⟩
    · refine ⟨hsync, fun q hq => ?_⟩
      obtain rfl := Option.some.inj hq
      exact h

/-- **One step** brings no other key. -/
theorem Life.HasKeys.step (h : x.HasKeys dir T) (hempty : T []) {i : LifeInput}
    (hi : i.Brings lib.heartbeat T) (hleaves : i.LeavesKey dir x) :
    (lifeStep lib x i).1.HasKeys dir T := by
  cases hx : x.process with
  | none =>
    have hnone : Life.HasKeys dir T x := h
    cases i with
    | launch l =>
      obtain ⟨rfl, hsql⟩ := hleaves
      simp only [lifeStep, hx]
      exact (launch_keys hsql hempty (hi.boot l rfl) hi.ticks h.disk).life
    | others d use =>
      simp only [lifeStep, hx, Option.map_none]
      exact ⟨h.disk.of_file hleaves, fun _ hq => by cases hq⟩
    | heartbeat t => simpa [lifeStep, hx] using hnone
    | sync s => simpa [lifeStep, hx] using hnone
    | shutdown => simpa [lifeStep, hx] using hnone
    | kill => simpa [lifeStep, hx] using hnone
  | some p =>
    have hp : p.HasKeys dir T := h.process p hx
    cases i with
    | launch l =>
      simp only [lifeStep, hx]
      exact h
    | others d use =>
      simp only [lifeStep, hx, Option.map_some]
      refine ⟨h.disk.of_file hleaves, fun q hq => ?_⟩
      obtain rfl := Option.some.inj hq
      exact hp
    | heartbeat t =>
      simp only [lifeStep, hx, Option.elim_some]
      exact hp.beat h.disk hempty (hi.ticks t (List.mem_singleton.mpr rfl))
    | sync s =>
      simp only [lifeStep, hx, Option.elim_some]
      exact hp.refresh h.disk
    | shutdown =>
      simp only [lifeStep, hx, Option.elim_some]
      exact ⟨h.disk, fun _ hq => by cases hq⟩
    | kill =>
      simp only [lifeStep, hx, Option.elim_some]
      exact ⟨h.disk, fun _ hq => by cases hq⟩

end Living

/-- A step of the run brings texts of the run. -/
theorem brings_of_mem {lib : HeartbeatLib} {dir : Path} {d : Disk} {inputs : List LifeInput}
    {i : LifeInput} (hi : i ∈ inputs) : i.Brings lib (KeyText lib dir d inputs) where
  boot := by
    rintro l rfl
    refine ⟨fun bundle s h hkey => .enrolled hi h hkey, fun f hf s hs => ?_⟩
    exact .torn hi (List.mem_append_left _ hf) hs
  ticks := by
    intro t ht
    refine ⟨fun bundle s h hkey => .rotated hi ht h hkey, fun f hf s hs => ?_⟩
    refine .torn hi ?_ hs
    cases i with
    | launch l => exact List.mem_append_right _ (List.mem_flatMap.mpr ⟨t, ht, hf⟩)
    | heartbeat t' =>
      obtain rfl := List.mem_singleton.mp ht
      exact hf
    | sync s => cases ht
    | others d use => cases ht
    | shutdown => cases ht
    | kill => cases ht

/-- **An edge signs with the keys it was issued.** In every run of launches, heartbeats,
rotations, syncs, shutdowns and deaths on one disk, whatever names the policies have and
wherever writes break off: the heartbeats of the process that is there sign with a key of
the run, and so does whatever is signed with the key file, cert-JWTs and agent tokens. -/
theorem signs_with_issued_keys [PyRuntime] (lib : AppLib) (dir : Path) (d : Disk)
    (inputs : List LifeInput)
    (hrun : ∀ v ∈ visits (lifeStep lib) { disk := d } inputs, v.2.LeavesKey dir v.1) :
    let x := final (lifeStep lib) { disk := d } inputs
    let issued := IssuedKey (KeyText lib.heartbeat dir d inputs)
    (∀ p loop, x.process = some p → p.heartbeat = some loop →
        issued loop.state.credentials.keyPem) ∧
      (∀ key, loadPrivateKeyPem x.disk dir = .ok key → issued key) ∧
      ∀ jwt json decodeError now edgeId ttlSeconds token,
        mintCertJwt jwt json decodeError now x.disk dir edgeId ttlSeconds = .ok token →
          ∃ payload key, issued key ∧ jwt.encode payload key = .ok token := by
  intro x issued
  let T := KeyText lib.heartbeat dir d inputs
  have hstart : Life.HasKeys dir T { disk := d } :=
    ⟨fun _ _ hfile h => .found hfile h, fun _ hp => by cases hp⟩
  have hend : x.HasKeys dir T := by
    have hguard := guarded_inv (lifeStep lib) (R := fun _ x => x.HasKeys dir T)
      (G := fun y i => i ∈ inputs ∧ i.LeavesKey dir y)
      (fun _ y i h hi => h.step .empty (brings_of_mem hi.1) hi.2) hstart
      (fun v hv => ⟨mem_visits (lifeStep lib) hv, hrun v hv⟩)
    exact hguard
  have hload : ∀ key, loadPrivateKeyPem x.disk dir = .ok key → issued key := by
    intro key hkey
    obtain ⟨found, -, h⟩ := bind_eq_ok.mp hkey
    split at h
    · obtain ⟨s, hs, h⟩ := bind_eq_ok.mp h
      cases h
      obtain ⟨text, hT, rfl⟩ := readText_key hend.disk (raising_ok hs)
      exact ⟨text, hT, Or.inr (Or.inr rfl)⟩
    · cases h
  refine ⟨fun p loop hp hloop => (hend.process p hp).2 loop hloop, hload, ?_⟩
  intro jwt json decodeError now edgeId ttlSeconds token hmint
  obtain ⟨payload, key, hkey, hencode⟩ := mint_key hmint
  exact ⟨payload, key, hload key hkey, hencode⟩

/-! The revoked pod is shut down, and restarted out of reach of the gateway. -/

def restartedLife : List LifeInput := revokedLife ++ [.shutdown, .launch outageLaunch]

theorem freshQueue_ownFiles (dir : Path) : freshQueue.OwnFiles dir :=
  fun t => ⟨.refl t, .refl t⟩

theorem restartedLife_leavesKey (x : Life) : ∀ i ∈ restartedLife, i.LeavesKey ["state"] x := by
  intro i hi
  have hcases : i = .launch firstLaunch ∨ (∃ t, i = .heartbeat t) ∨ i = .shutdown ∨
      i = .launch outageLaunch := by
    simp only [restartedLife, revokedLife, List.cons_append, List.nil_append, List.mem_cons,
      List.not_mem_nil, or_false] at hi
    rcases hi with h | h | h | h
    · exact Or.inl h
    · exact Or.inr (Or.inl ⟨_, h⟩)
    · exact Or.inr (Or.inr (Or.inl h))
    · exact Or.inr (Or.inr (Or.inr h))
  rcases hcases with rfl | ⟨t, rfl⟩ | rfl | rfl
  · exact ⟨rfl, freshQueue_ownFiles _⟩
  · trivial
  · trivial
  · exact ⟨rfl, freshQueue_ownFiles _⟩

/-- It signs with the key of its enrollment. -/
theorem signs_with_issued_keys_restart : ∃ p loop,
    (final (@lifeStep asciiRuntime demoPodLib) { disk := .empty } restartedLife).process = some p ∧
      p.heartbeat = some loop ∧ loop.state.credentials.keyPem = ("key-1" : Str) ∧
        IssuedKey (KeyText demoEnrollLib ["state"] .empty restartedLife) ("key-1" : Str) := by
  have hkey : ((final (@lifeStep asciiRuntime demoPodLib) { disk := .empty }
      restartedLife).process.bind Serving.heartbeat).map
        (fun loop => loop.state.credentials.keyPem) = some ("key-1" : Str) := by
    decide +kernel
  obtain ⟨loop, hloop, hpem⟩ := Option.map_eq_some_iff.mp hkey
  obtain ⟨p, hp, hheartbeat⟩ := Option.bind_eq_some_iff.mp hloop
  obtain ⟨hissued, -⟩ := @signs_with_issued_keys asciiRuntime demoPodLib ["state"] .empty
    restartedLife (fun v hv => restartedLife_leavesKey v.1 v.2 (mem_visits _ hv))
  have hthis := hissued p loop hp hheartbeat
  rw [hpem] at hthis
  exact ⟨p, loop, hp, hheartbeat, hpem, hthis⟩

end TrustModelEdge
