/-
# Agreement of statuses and metadata

In every state that server instances reach over one repository and one store, the documents
that `timestamp.json` leads to pin each other, list what is published and omit what is not
or no longer. `timestamp.json` moves to higher versions only, and what a version has been
written for stays as it is.
-/

import Useful.Server.PublishedStatus

namespace Useful.Server

open Useful.Math Useful.TufMeta

section

variable {β : Type} (parse : β → Option (Json GoNumber)) (env : External β)

/-- Statuses that no target may have. -/
def ArtifactStatus.isUntargeted (status : ArtifactStatus) : Bool :=
  status ∈ [.staged, .scanned, .rejected, .withdrawn]

/-- The statuses and the metadata in place agree. -/
structure Agreement (w : World β) : Prop where
  closed : w.objects timestampKey ≠ none →
    ∃ r version, reach parse w.objects = some r ∧ r.Closed parse env version
  published : ∀ art ∈ w.artifacts.rows, art.status = .published →
    ∃ r, reach parse w.objects = some r ∧ r.Lists parse env art
  untargeted : ∀ art ∈ w.artifacts.rows, art.status.isUntargeted = true →
    ∀ r, reach parse w.objects = some r → r.Omits parse env art

/-- Nothing has been uploaded, created or published yet. -/
structure Unpublished (w : World β) : Prop where
  uploads : w.uploads.rows = []
  artifacts : w.artifacts.rows = []
  timestamp : w.objects timestampKey = none

end

namespace Leasing

variable {β : Type} {parse : β → Option (Json GoNumber)} {env : External β} {config : Config}
  {w : World β}

theorem agreeing_of_unpublished (h : Unpublished w) : Agreeing parse env w where
  sessions sess hsess := by
    rw [h.uploads] at hsess
    cases hsess
  served hsome := absurd h.timestamp hsome
  unpublished _ id core hsettled := by
    obtain ⟨art, hart, _⟩ := settled_eq_some.mp hsettled
    have hmem := (Table.find_eq_some.mp hart).1
    rw [h.artifacts] at hmem
    cases hmem

/-- A row settles under its identifier, unless it was never approved. -/
theorem settled_of_mem {art : Artifact} (hart : art ∈ w.artifacts.rows) :
    w.settled art.id = if art.status.isReleased then some (art.core, art.status) else none := by
  unfold World.settled
  rw [Table.find_eq_some.mpr ⟨hart, rfl⟩]

theorem agreement_of_agreeing (hid : Function.Injective env.identityDigest)
    (h : Agreeing parse env w) : Agreement parse env w where
  closed hsome := by
    obtain ⟨r, version, hserves⟩ := h.served hsome
    exact ⟨r, version, hserves.reached, hserves.closed⟩
  published art hart hstatus := by
    have hsettled : w.settled art.id = some (art.core, .published) := by
      rw [settled_of_mem hart, hstatus]
      rfl
    have hsome : w.objects timestampKey ≠ none :=
      fun hnone => h.unpublished hnone art.id art.core hsettled
    obtain ⟨r, version, hserves⟩ := h.served hsome
    exact ⟨r, hserves.reached, lists_core (hserves.listed art.id art.core hsettled) art.core_core⟩
  untargeted art hart hstatus r hr name members hname hmembers hmem := by
    have hsome : w.objects timestampKey ≠ none := by
      rw [timestamp_of_reach hr]
      exact nofun
    obtain ⟨r', version, hserves⟩ := h.served hsome
    cases hr.symm.trans hserves.reached
    obtain ⟨id, core, status, hsettled, hnotWithdrawn, htarget⟩ :=
      hserves.members members hmembers name hmem
    -- the target is that of the artifact itself, which is settled only when withdrawn
    have hsame : art.id = id :=
      (id_eq_of_targetName hid hname htarget).trans (core_id_of_settled hsettled)
    subst hsame
    rw [settled_of_mem hart] at hsettled
    cases hcase : art.status with
    | withdrawn =>
        rw [hcase] at hsettled
        cases hsettled
        exact hnotWithdrawn rfl
    | staged | scanned | rejected =>
        rw [hcase] at hsettled
        cases hsettled
    | approved | publishPending | published | withdrawPending =>
        rw [hcase] at hstatus
        cases hstatus

theorem keeps_abandon (i : Nat) (h : Agreeing parse env w) :
    (leasing parse env).Keeps i w ((service env config).abandon i w) := by
  show (leasing parse env).Keeps i w (if w.lease = some i then { w with lease := none } else w)
  by_cases hlease : w.lease = some i
  · rw [if_pos hlease]
    apply keeps_of_grows (others_of_lease hlease)
    · exact agreeing_of_version h _ (Int.le_refl _)
    · exact grows_of_eq rfl rfl
  · rw [if_neg hlease]
    exact Discipline.keeps_refl h

section

variable {sys sys' : System (Label β) (World β) ServerError}

/-- No step is guarded. -/
theorem meets_leasing (event : SystemEvent ServerError (Operation β)) :
    Machine.Meets (leasing parse env).guard sys event := by
  cases event with
  | start op => trivial
  | step i reply => exact fun _ _ _ _ _ => trivial
  | stop i => trivial

/-- Every step of every task grows. -/
theorem grows_of_step {event : SystemEvent ServerError (Operation β)}
    (h : Machine.Disciplined (leasing parse env) sys)
    (hstep : (service env config).Step sys event sys') : Grows parse sys.shared sys'.shared := by
  obtain ⟨i, hkeeps⟩ :=
    Machine.keeps_of_step (fun i _ => keeps_abandon i) h (meets_leasing event) hstep
  exact grows_of_keeps hkeeps

variable (hparse : ReadsBack parse env) (hsha : Function.Injective env.sha256Hex)
  (hid : Function.Injective env.identityDigest)

include hparse hsha hid

theorem disciplined_step {event : SystemEvent ServerError (Operation β)}
    (h : Machine.Disciplined (leasing parse env) sys)
    (hstep : (service env config).Step sys event sys') :
    Machine.Disciplined (leasing parse env) sys' :=
  Machine.disciplined_step (fun _ op => steady_startOperation hparse hsha hid op)
    (fun i _ => keeps_abandon i) h (meets_leasing event) hstep

variable {events : List (SystemEvent ServerError (Operation β))}

theorem disciplined_of_run (h : Machine.Disciplined (leasing parse env) sys)
    (hrun : Run (service env config).Step sys events sys') :
    Machine.Disciplined (leasing parse env) sys' :=
  hrun.invariant (fun _ _ _ hs hstep => disciplined_step hparse hsha hid hs hstep) h

theorem grows_of_run (h : Machine.Disciplined (leasing parse env) sys)
    (hrun : Run (service env config).Step sys events sys') : Grows parse sys.shared sys'.shared :=
  hrun.forward (Machine.Disciplined (leasing parse env)) (fun s t => Grows parse s.shared t.shared)
    (fun s => .refl parse s.shared) (fun _ _ _ hst htu => hst.trans htu)
    (fun _ _ _ hs hstep => disciplined_step hparse hsha hid hs hstep)
    (fun _ _ _ hs hstep => grows_of_step hs hstep) h

/-- In every reachable state statuses and metadata agree; a step that moves
`timestamp.json` raises its version; and the documents of a version stay. -/
theorem agreement_of_run (hfresh : Unpublished sys.shared) (hidle : sys.tasks = [])
    (hrun : Run (service env config).Step sys events sys') :
    Agreement parse env sys'.shared ∧
      (∀ event next, (service env config).Step sys' event next →
        next.shared.objects timestampKey ≠ sys'.shared.objects timestampKey →
          Newer parse sys'.shared next.shared) ∧
      ∀ later events', Run (service env config).Step sys' events' later → ∀ version bytes,
        ∀ key ∈ [targetsKey version, snapshotKey version],
          sys'.shared.objects key = some bytes → later.shared.objects key = some bytes := by
  have hstart : Machine.Disciplined (leasing parse env) sys :=
    Machine.disciplined_of_idle (agreeing_of_unpublished hfresh) hidle
  have hreached := disciplined_of_run hparse hsha hid hstart hrun
  refine ⟨agreement_of_agreeing hid hreached.1, ?_, ?_⟩
  · intro event next hstep hmoved
    exact (grows_of_step hreached hstep).timestamp.resolve_left hmoved
  · intro later events' hlater version bytes key hkey hbytes
    have hgrows := grows_of_run hparse hsha hid hreached hlater
    simp only [List.mem_cons, List.not_mem_nil, or_false] at hkey
    cases hkey with
    | inl htargets =>
        subst htargets
        exact hgrows.documents _ bytes (targetsKey_ne_timestampKey version) hbytes
    | inr hsnapshot =>
        subst hsnapshot
        exact hgrows.documents _ bytes (snapshotKey_ne_timestampKey version) hbytes

end

end Leasing

/-! ## One publication -/

namespace Leasing.Sample

/-- A text stands for its bytes, a document for the bytes it is serialized to. -/
def text (v : Json Int) : String := String.ofList (Json.render quoted decimal v)

theorem text_injective : Function.Injective text := by
  intro v v' h
  exact (Json.readableParts_quoted_decimal Function.injective_id).render_injective
    (String.ofList_injective h)

def targetsSignature : String :=
  "c0d624274ad67000829b3540f09886f3495c8237123358eca719a7a02ff1856970a5079f7c008c5d9a95fc962dedecc6638445ac1dbfc4811225c5907a204206"

def snapshotSignature : String :=
  "906eac78187197b66de849faf162509dc969995252b3bfc041726ccde85ff7e9e95ae33fcf8cdfcf8b363143aaf9b615a028b7d6c36a83b22337ce76965ee709"

def timestampSignature : String :=
  "e59c947470572ea8e356eb1ec526f116cb72ae7eca1803eb8526cbc0082bb94b1ecb70db883a462dd7b9929a031495cbafadb37a3fb063a30786fd5e930a9f0c"

def targetsKey : Key where
  keyID := "1e107b19915b79ded2f6e0c78d0e01da8b0ecfe9ef3c6ea5f29e2a52597d63e3"
  publicHex := "9177bb9d692ffe756b232f1305d5fb5707d8f9641af09405176c2c71ded60638"
  hasPrivate := true

def snapshotKey : Key where
  keyID := "5c75510c2184218a4d63b29943f27262166172aa9ec5aff820fcd851e0a720aa"
  publicHex := "8dd87b95eb0e6331924524cb45d1644ba351cbf6506ad6403e23dd5355413c41"
  hasPrivate := true

def timestampKey : Key where
  keyID := "f20824f44cff812a134cf20ecdb48001f4266a00302e9a155c8af89c462d1d2d"
  publicHex := "72375f171f091d938de38e55c18454218786fcde01311c3d5d1e60a35245b7f7"
  hasPrivate := true

/-- The first second of 2026. -/
def now : Int := 1767225600

def signatures (key : Key) (signature : String) : Json Int :=
  .arr [.obj [("keyid", .str key.keyID), ("sig", .str signature)]]

def targetsDigest : String := "bc6e677e943c5bc84c3d9bb33d312808c7a1e492c0a2cf6a0311c23bcca2b1a1"

def snapshotDigest : String := "1d5cae1824041cb737446869ad742680961af4d94c70ba46287b0282e65f293b"

/-- The targets document of a repository without artifacts. -/
def targetsDocument : Json Int :=
  .obj [("signatures", signatures targetsKey targetsSignature),
    ("signed", .obj [("_type", .str "targets"), ("expires", .str "2026-04-01T00:00:00Z"),
      ("spec_version", .str "1.0.0"), ("targets", .obj []), ("version", .num now)])]

def snapshotDocument : Json Int :=
  .obj [("signatures", signatures snapshotKey snapshotSignature),
    ("signed", .obj [("_type", .str "snapshot"), ("expires", .str "2026-01-08T00:00:00Z"),
      ("meta", .obj [("targets.json", .obj [("hashes", .obj [("sha256", .str targetsDigest)]),
        ("length", .num 421), ("version", .num now)])]),
      ("spec_version", .str "1.0.0"), ("version", .num now)])]

/-- The digests of the two documents, and other texts for other documents. -/
@[irreducible] def sha256Hex (v : Json Int) : String :=
  if text v = text targetsDocument then targetsDigest
  else if text v = text snapshotDocument then snapshotDigest
  else "?" ++ text v

def value : GoNumber → Int
  | .int n => n
  | _ => 0

def env : External (Json Int) where
  length v :=
    if text v = text targetsDocument then 421
    else if text v = text snapshotDocument then 627
    else (text v).utf8ByteSize
  sha256Hex := sha256Hex
  sha256Text := id
  identityDigest fields := text (.arr (fields.map .str))
  ed25519Verify _ _ _ := false
  ed25519Sign publicHex _ :=
    if publicHex = targetsKey.publicHex then targetsSignature
    else if publicHex = snapshotKey.publicHex then snapshotSignature
    else timestampSignature
  hexError _ := ""
  marshalIndent v := v.mapNum value
  marshalScanResult _ := ""
  formatTime t :=
    if t = now + 90 * 86400 then "2026-04-01T00:00:00Z"
    else if t = now + 7 * 86400 then "2026-01-08T00:00:00Z"
    else "2026-01-02T00:00:00Z"
  readArchive _ := .error "zip: not a valid zip file"

def parse (v : Json Int) : Option (Json GoNumber) := some (v.mapNum .int)

def config : Config where
  targetsKey := targetsKey
  snapshotKey := snapshotKey
  timestampKey := timestampKey
  targetsExpireDays := 90
  snapshotExpireDays := 7
  timestampExpireDays := 1
  maxUpload := 1048576
  autoApprove := false

def world : World (Json Int) where
  publishers := .empty
  tools := .empty
  artifacts := .empty
  artIdentityIx _ := none
  uploads := .empty
  jobs := .empty
  objects _ := none
  lease := none
  tufVersion := 0
  inspections := []
  scans := []

theorem unpublished_world : Unpublished world := ⟨rfl, rfl, rfl⟩

theorem readsBack_env : ReadsBack parse env := by
  intro v _ hints
  have hsorted := Json.anyNum_sortKeys Tuf.byteLe (fun n => ! isInt n) v
  have hback : ∀ n : GoNumber, (! isInt n) = false → GoNumber.int (value n) = n := by
    intro n hn
    cases n with
    | int n => rfl
    | float64 q => cases hn
    | jsonNumber text => cases hn
  exact congrArg some (Json.mapNum_mapNum_eq_self hback (hsorted.trans hints))

theorem digests_ne : targetsDigest ≠ snapshotDigest ∧ ∀ s, targetsDigest ≠ "?" ++ s ∧
    snapshotDigest ≠ "?" ++ s := by
  have hhead : ∀ (s digest : String), digest.toList.head? ≠ some '?' → digest ≠ "?" ++ s := by
    intro s digest hdigest heq
    rw [heq, String.toList_append] at hdigest
    exact hdigest rfl
  exact ⟨by decide, fun s => ⟨hhead s _ (by decide), hhead s _ (by decide)⟩⟩

theorem sha256Hex_injective : Function.Injective sha256Hex := by
  intro v v' h
  apply text_injective
  unfold sha256Hex at h
  generalize text v = a at h ⊢
  generalize text v' = b at h ⊢
  generalize text targetsDocument = t at h
  generalize text snapshotDocument = u at h
  have hne := digests_ne
  generalize targetsDigest = d at h hne
  generalize snapshotDigest = e at h hne
  grind [String.append_right_inj]

theorem identityDigest_injective : Function.Injective env.identityDigest := by
  intro fields fields' h
  have harr := Json.arr.inj (text_injective h)
  exact List.map_injective_iff.mpr (fun _ _ h => Json.str.inj h) harr

/-- The world after `PublishMetadata` has run alone. -/
def published : World (Json Int) :=
  ((publishMetadata env config 0 now).alone (fun _ => .proceed) world).2.2

theorem timestamp_published : (published.objects Useful.Server.timestampKey).isSome = true := by
  decide

/-- `PublishMetadata` on an empty repository: every hypothesis is met, and there is a
timestamp to agree with. -/
theorem agreement_of_run_publish : ∃ (events : List (SystemEvent ServerError (Operation (Json Int))))
    (sys : System (Label (Json Int)) (World (Json Int)) ServerError),
    (sys.shared.objects Useful.Server.timestampKey).isSome = true ∧
      Run (service env config).Step ⟨world, []⟩ events sys ∧ Agreement parse env sys.shared := by
  have hadvance : ∀ task : Work (Json Int) Unit, ∃ outcome, Advance (fun _ _ => True) task world
      (.done outcome) (task.alone (fun _ => .proceed) world).2.2 :=
    fun _ => ⟨_, .of_alone fun _ => rfl⟩
  obtain ⟨outcome, halone⟩ := hadvance (publishMetadata env config 0 now)
  have hstart : ∃ n, Run (Guarded (fun sys event => Machine.Meets (fun _ _ => True) sys event ∧
      event.Lets fun _ => True) (service env config).Step) ⟨world, []⟩
      (.start (.publishMetadata now) :: List.replicate n (.step 0 .proceed))
      ⟨published, [.done outcome]⟩ := halone.run_start trivial
  obtain ⟨n, hrun⟩ := hstart
  exact ⟨_, _, timestamp_published, hrun.of_guarded, (agreement_of_run readsBack_env
    sha256Hex_injective identityDigest_injective unpublished_world rfl hrun.of_guarded).1⟩

end Leasing.Sample

end Useful.Server
