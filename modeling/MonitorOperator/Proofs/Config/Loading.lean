import MonitorOperator.Config
import MonitorOperator.Proofs.Config.Denotation

/-! The configuration that the variables of the environment make. Main statement: it comes about
exactly if no variable sets a part of a field and those of numbers denote numbers that fit, and then
every field is what its variable says, or is left at its default. -/

namespace MonitorOperator.Config

open Setting (lowered)

structure NumberField where
  name : String
  get : Config → Nat
  size : Nat

def numberFields : List NumberField := [
  ⟨"workers", (·.workers.toNat), UInt64.size⟩,
  ⟨"api_port", (·.apiPort.toNat), UInt16.size⟩,
  ⟨"backoff_base_ms", (·.backoffBaseMillis.toNat), UInt64.size⟩,
  ⟨"backoff_max_secs", (·.backoffMaxSeconds.toNat), UInt64.size⟩,
  ⟨"failed_requeue_secs", (·.failedSeconds.toNat), UInt64.size⟩,
  ⟨"resync_secs", (·.resyncSeconds.toNat), UInt64.size⟩,
  ⟨"unrecognized_requeue_secs", (·.unrecognizedSeconds.toNat), UInt64.size⟩,
  ⟨"event_dedup_secs", (·.dedupSeconds.toNat), UInt64.size⟩]

structure TextField where
  name : String
  get : Config → Option String

def textFields : List TextField := [
  ⟨"monitor_image", fun c => some c.image⟩,
  ⟨"host_log_path", fun c => some c.hostLogPath⟩,
  ⟨"service_account", fun c => some c.serviceAccount⟩,
  ⟨"manifest_path", (·.manifestPath)⟩]

def Sets (v : String × String) (field : String) : Prop :=
  lowered v.1 = commonStart ++ field.toList

/-- Every field is what the text of its variable says, or is left at the default. -/
structure Loaded (env : Environment) (c : Config) : Prop where
  number : ∀ f ∈ numberFields, ∀ v ∈ env, Sets v f.name → Denotes v.2 (f.get c)
  text : ∀ f ∈ textFields, ∀ v ∈ env, Sets v f.name → ∃ t, f.get c = some t ∧ Respelled v.2 t
  number_left_out : ∀ f ∈ numberFields, (∀ v ∈ env, ¬Sets v f.name) → f.get c = f.get {}
  text_left_out : ∀ f ∈ textFields, (∀ v ∈ env, ¬Sets v f.name) → f.get c = f.get {}

/-- No variable sets a part of a field, and those of numbers denote one that fits. -/
structure Loadable (env : Environment) : Prop where
  whole : ∀ field ∈ numberFields.map NumberField.name ++ textFields.map TextField.name,
    hasParts env (commonStart ++ field.toList) = false
  number : ∀ f ∈ numberFields, ∀ v ∈ env, Sets v f.name → ∃ n < f.size, Denotes v.2 n

section Loading

variable {env : Environment} {field : String}

theorem bind_eq_ok_iff {α β : Type} {f : α → Except Fault β} {r : Except Fault α} {b : β} :
    r >>= f = .ok b ↔ ∃ a, r = .ok a ∧ f a = .ok b := by
  cases r with
  | error fault => exact ⟨nofun, nofun⟩
  | ok a => exact ⟨fun bound => ⟨a, rfl, bound⟩, fun ⟨_, same, bound⟩ => by cases same; exact bound⟩

theorem value?_eq_none_iff {name : List Char} :
    value? env name = none ↔ ∀ v ∈ env, lowered v.1 ≠ name := by
  rw [value?, Option.map_eq_none_iff, List.find?_eq_none]
  simp only [List.mem_reverse, decide_eq_true_eq]

variable (distinct : (env.map (fun v => lowered v.1)).Nodup)
include distinct

theorem value?_of_mem {v : String × String} (member : v ∈ env) (sets : Sets v field) :
    value? env (commonStart ++ field.toList) = some v.2 := by
  cases found : value? env (commonStart ++ field.toList) with
  | none => exact absurd sets (value?_eq_none_iff.mp found v member)
  | some s =>
    obtain ⟨w, last, rfl⟩ := Option.map_eq_some_iff.mp found
    have other : w ∈ env := List.mem_reverse.mp (List.mem_of_find?_eq_some last)
    have same : lowered w.1 = lowered v.1 := by
      simpa [sets.symm] using List.find?_some last
    rw [List.inj_on_of_nodup_map distinct other member same]

omit distinct in
theorem setting?_eq_ok_iff {o : Option Setting} : setting? env field = .ok o ↔
    hasParts env (commonStart ++ field.toList) = false ∧
      o = (value? env (commonStart ++ field.toList)).map Setting.ofText := by
  unfold setting?
  dsimp only
  split
  · rename_i parts
    simp [parts]
  · rename_i whole
    rw [Except.ok.injEq, eq_comm (a := o)]
    exact (and_iff_right (Bool.eq_false_iff.mpr whole)).symm

theorem setting?_cases {o : Option Setting} (read : setting? env field = .ok o) :
    (∃ v ∈ env, Sets v field ∧ o = some (.ofText v.2) ∧
      ∀ w ∈ env, Sets w field → w = v) ∨
    (o = none ∧ ∀ v ∈ env, ¬Sets v field) := by
  obtain ⟨-, rfl⟩ := setting?_eq_ok_iff.mp read
  by_cases present : ∃ v ∈ env, Sets v field
  · obtain ⟨v, member, sets⟩ := present
    refine .inl ⟨v, member, sets, ?_, fun w other same => ?_⟩
    · rw [value?_of_mem distinct member sets]
      rfl
    · exact List.inj_on_of_nodup_map distinct other member (same.trans sets.symm)
  · have absent : ∀ v ∈ env, ¬Sets v field := fun v member sets => present ⟨v, member, sets⟩
    exact .inr ⟨by rw [value?_eq_none_iff.mpr absent]; rfl, absent⟩

theorem number_spec {d n : UInt64} (read : number env field d = .ok n) :
    (∀ v ∈ env, Sets v field → Denotes v.2 n.toNat) ∧ ((∀ v ∈ env, ¬Sets v field) → n = d) := by
  obtain ⟨o, found, read⟩ := bind_eq_ok_iff.mp read
  rcases setting?_cases distinct found with ⟨v, member, sets, rfl, only⟩ | ⟨rfl, absent⟩
  · dsimp only at read
    split at read
    · rename_i number
      cases read
      refine ⟨fun w other same => ?_, fun absent => absurd sets (absent v member)⟩
      rw [only w other same]
      exact denotes_of_number? number
    · cases read
  · cases read
    exact ⟨fun v member sets => absurd sets (absent v member), fun _ => rfl⟩

theorem port_spec {d n : UInt16} (read : port env field d = .ok n) :
    (∀ v ∈ env, Sets v field → Denotes v.2 n.toNat) ∧ ((∀ v ∈ env, ¬Sets v field) → n = d) := by
  obtain ⟨wide, found, read⟩ := bind_eq_ok_iff.mp read
  obtain ⟨denoted, default⟩ := number_spec distinct found
  split at read
  · rename_i fits
    cases read
    have same : (UInt16.ofNat wide.toNat).toNat = wide.toNat := UInt16.toNat_ofNat_of_lt' fits
    refine ⟨fun v member sets => ?_, fun absent => ?_⟩
    · rw [same]
      exact denoted v member sets
    · have small : d.toNat < UInt64.size := d.toNat_lt.trans (by decide)
      rw [default absent, UInt64.toNat_ofNat_of_lt' small, UInt16.ofNat_toNat]
  · cases read

theorem text?_spec {o : Option String} (read : text? env field = .ok o) :
    (∀ v ∈ env, Sets v field → ∃ t, o = some t ∧ Respelled v.2 t) ∧
      ((∀ v ∈ env, ¬Sets v field) → o = none) := by
  obtain ⟨setting, found, read⟩ := bind_eq_ok_iff.mp read
  cases read
  rcases setting?_cases distinct found with ⟨v, member, sets, rfl, only⟩ | ⟨rfl, absent⟩
  · refine ⟨fun w other same => ⟨_, rfl, ?_⟩, fun absent => absurd sets (absent v member)⟩
    rw [only w other same]
    exact respelled_written v.2
  · exact ⟨fun v member sets => absurd sets (absent v member), fun _ => rfl⟩

theorem number_made_out {d : UInt64} {size : Nat} (fits : d.toNat < size)
    (whole : hasParts env (commonStart ++ field.toList) = false)
    (denoted : ∀ v ∈ env, Sets v field → ∃ n < size, Denotes v.2 n) :
    ∃ n : UInt64, number env field d = .ok n ∧ n.toNat < size := by
  have found := setting?_eq_ok_iff.mpr ⟨whole, rfl⟩
  unfold number
  rcases setting?_cases distinct found with ⟨v, member, sets, setting, -⟩ | ⟨setting, -⟩
  · obtain ⟨n, below, denotes⟩ := denoted v member sets
    obtain ⟨read, large⟩ := number?_of_denotes denotes
    refine ⟨.ofNat n, bind_eq_ok_iff.mpr ⟨_, found, ?_⟩, ?_⟩
    · rw [setting]
      dsimp only
      rw [read]
      rfl
    · rwa [UInt64.toNat_ofNat_of_lt' large]
  · refine ⟨d, bind_eq_ok_iff.mpr ⟨_, found, ?_⟩, fits⟩
    rw [setting]
    rfl

theorem port_made_out {d : UInt16}
    (whole : hasParts env (commonStart ++ field.toList) = false)
    (denoted : ∀ v ∈ env, Sets v field → ∃ n < UInt16.size, Denotes v.2 n) :
    ∃ n, port env field d = .ok n := by
  have small : d.toNat < UInt64.size := d.toNat_lt.trans (by decide)
  obtain ⟨n, found, fits⟩ := number_made_out (d := .ofNat d.toNat) distinct
    (by rw [UInt64.toNat_ofNat_of_lt' small]; exact d.toNat_lt) whole denoted
  exact ⟨_, bind_eq_ok_iff.mpr ⟨n, found, if_pos fits⟩⟩

end Loading

structure Parts (env : Environment) (c : Config) : Prop where
  workers : number env "workers" ({} : Config).workers = .ok c.workers
  apiPort : port env "api_port" ({} : Config).apiPort = .ok c.apiPort
  backoffBase : number env "backoff_base_ms" ({} : Config).backoffBaseMillis =
    .ok c.backoffBaseMillis
  backoffMax : number env "backoff_max_secs" ({} : Config).backoffMaxSeconds =
    .ok c.backoffMaxSeconds
  failed : number env "failed_requeue_secs" ({} : Config).failedSeconds = .ok c.failedSeconds
  resync : number env "resync_secs" ({} : Config).resyncSeconds = .ok c.resyncSeconds
  unrecognized : number env "unrecognized_requeue_secs" ({} : Config).unrecognizedSeconds =
    .ok c.unrecognizedSeconds
  image : ∃ o, text? env "monitor_image" = .ok o ∧ o.getD ({} : Config).image = c.image
  hostLogPath : ∃ o, text? env "host_log_path" = .ok o ∧
    o.getD ({} : Config).hostLogPath = c.hostLogPath
  serviceAccount : ∃ o, text? env "service_account" = .ok o ∧
    o.getD ({} : Config).serviceAccount = c.serviceAccount
  dedup : number env "event_dedup_secs" ({} : Config).dedupSeconds = .ok c.dedupSeconds
  manifestPath : text? env "manifest_path" = .ok c.manifestPath

theorem ofEnvironment_eq_ok_iff {env : Environment} {c : Config} :
    ofEnvironment env = .ok c ↔ Parts env c := by
  unfold ofEnvironment
  simp only [bind_eq_ok_iff]
  constructor
  · rintro ⟨_, workers, _, apiPort, _, backoffBase, _, backoffMax, _, failed, _, resync, _,
      unrecognized, image, imageRead, log, logRead, account, accountRead, _, dedup, _, manifest,
      rest⟩
    cases rest
    exact {
      workers := workers, apiPort := apiPort, backoffBase := backoffBase, backoffMax := backoffMax
      failed := failed, resync := resync, unrecognized := unrecognized
      image := ⟨_, imageRead, rfl⟩, hostLogPath := ⟨_, logRead, rfl⟩
      serviceAccount := ⟨_, accountRead, rfl⟩, dedup := dedup, manifestPath := manifest }
  · intro parts
    obtain ⟨image, imageRead, imageIs⟩ := parts.image
    obtain ⟨log, logRead, logIs⟩ := parts.hostLogPath
    obtain ⟨account, accountRead, accountIs⟩ := parts.serviceAccount
    refine ⟨_, parts.workers, _, parts.apiPort, _, parts.backoffBase, _, parts.backoffMax, _,
      parts.failed, _, parts.resync, _, parts.unrecognized, _, imageRead, _, logRead, _,
      accountRead, _, parts.dedup, _, parts.manifestPath, ?_⟩
    rw [imageIs, logIs, accountIs]
    rfl

section Main

variable {env : Environment} {c : Config}

theorem whole_of_number {field : String} {d n : UInt64} (read : number env field d = .ok n) :
    hasParts env (commonStart ++ field.toList) = false := by
  obtain ⟨_, found, -⟩ := bind_eq_ok_iff.mp read
  exact (setting?_eq_ok_iff.mp found).1

theorem whole_of_text? {field : String} {o : Option String} (read : text? env field = .ok o) :
    hasParts env (commonStart ++ field.toList) = false := by
  obtain ⟨_, found, -⟩ := bind_eq_ok_iff.mp read
  exact (setting?_eq_ok_iff.mp found).1

theorem Parts.whole (parts : Parts env c) :
    ∀ field ∈ numberFields.map NumberField.name ++ textFields.map TextField.name,
      hasParts env (commonStart ++ field.toList) = false := by
  obtain ⟨port, portRead, -⟩ := bind_eq_ok_iff.mp parts.apiPort
  obtain ⟨_, imageRead, -⟩ := parts.image
  obtain ⟨_, logRead, -⟩ := parts.hostLogPath
  obtain ⟨_, accountRead, -⟩ := parts.serviceAccount
  simp only [numberFields, textFields, List.map_cons, List.map_nil, List.cons_append,
    List.nil_append, List.forall_mem_cons, List.not_mem_nil, IsEmpty.forall_iff, implies_true,
    and_true]
  exact ⟨whole_of_number parts.workers, whole_of_number portRead, whole_of_number parts.backoffBase,
    whole_of_number parts.backoffMax, whole_of_number parts.failed, whole_of_number parts.resync,
    whole_of_number parts.unrecognized, whole_of_number parts.dedup, whole_of_text? imageRead,
    whole_of_text? logRead, whole_of_text? accountRead, whole_of_text? parts.manifestPath⟩

variable (distinct : (env.map (fun v => lowered v.1)).Nodup)
include distinct

theorem Parts.number (parts : Parts env c) :
    ∀ f ∈ numberFields, f.get c < f.size ∧ (∀ v ∈ env, Sets v f.name → Denotes v.2 (f.get c)) ∧
      ((∀ v ∈ env, ¬Sets v f.name) → f.get c = f.get {}) := by
  have wide {field : String} {d n : UInt64} (read : Config.number env field d = .ok n) :
      n.toNat < UInt64.size ∧ (∀ v ∈ env, Sets v field → Denotes v.2 n.toNat) ∧
        ((∀ v ∈ env, ¬Sets v field) → n.toNat = d.toNat) := by
    obtain ⟨denoted, default⟩ := number_spec distinct read
    exact ⟨n.toNat_lt, denoted, fun absent => congrArg UInt64.toNat (default absent)⟩
  obtain ⟨denoted, default⟩ := port_spec distinct parts.apiPort
  simp only [numberFields, List.forall_mem_cons, List.not_mem_nil, IsEmpty.forall_iff, implies_true,
    and_true]
  exact ⟨wide parts.workers,
    ⟨c.apiPort.toNat_lt, denoted, fun absent => congrArg UInt16.toNat (default absent)⟩,
    wide parts.backoffBase, wide parts.backoffMax, wide parts.failed, wide parts.resync,
    wide parts.unrecognized, wide parts.dedup⟩

theorem Parts.text (parts : Parts env c) :
    ∀ f ∈ textFields, (∀ v ∈ env, Sets v f.name → ∃ t, f.get c = some t ∧ Respelled v.2 t) ∧
      ((∀ v ∈ env, ¬Sets v f.name) → f.get c = f.get {}) := by
  have full {field d t : String} (read : ∃ o, text? env field = .ok o ∧ o.getD d = t) :
      (∀ v ∈ env, Sets v field → ∃ t', some t = some t' ∧ Respelled v.2 t') ∧
        ((∀ v ∈ env, ¬Sets v field) → some t = some d) := by
    obtain ⟨o, read, rfl⟩ := read
    obtain ⟨respelled, default⟩ := text?_spec distinct read
    refine ⟨fun v member sets => ?_, fun absent => by rw [default absent]; rfl⟩
    obtain ⟨t, rfl, same⟩ := respelled v member sets
    exact ⟨t, rfl, same⟩
  simp only [textFields, List.forall_mem_cons, List.not_mem_nil, IsEmpty.forall_iff, implies_true,
    and_true]
  exact ⟨full parts.image, full parts.hostLogPath, full parts.serviceAccount,
    text?_spec distinct parts.manifestPath⟩

theorem Loadable.parts (loadable : Loadable env) : ∃ c, Parts env c := by
  obtain ⟨whole, denoted⟩ := loadable
  simp only [numberFields, textFields, List.map_cons, List.map_nil, List.cons_append,
    List.nil_append, List.forall_mem_cons, List.not_mem_nil, IsEmpty.forall_iff, implies_true,
    and_true] at whole denoted
  obtain ⟨workersWhole, portWhole, baseWhole, maxWhole, failedWhole, resyncWhole, unrecognizedWhole,
    dedupWhole, imageWhole, logWhole, accountWhole, manifestWhole⟩ := whole
  obtain ⟨workers, port, base, max, failed, resync, unrecognized, dedup⟩ := denoted
  have wide {field : String} {d : UInt64}
      (whole : hasParts env (commonStart ++ field.toList) = false)
      (denoted : ∀ v ∈ env, Sets v field → ∃ n < UInt64.size, Denotes v.2 n) :
      ∃ n, Config.number env field d = .ok n :=
    (number_made_out distinct d.toNat_lt whole denoted).imp fun _ => And.left
  have text {field : String} (whole : hasParts env (commonStart ++ field.toList) = false) :
      ∃ o, text? env field = .ok o :=
    ⟨_, bind_eq_ok_iff.mpr ⟨_, setting?_eq_ok_iff.mpr ⟨whole, rfl⟩, rfl⟩⟩
  obtain ⟨_, workers⟩ := wide workersWhole workers
  obtain ⟨_, port⟩ := port_made_out distinct portWhole port
  obtain ⟨_, base⟩ := wide baseWhole base
  obtain ⟨_, max⟩ := wide maxWhole max
  obtain ⟨_, failed⟩ := wide failedWhole failed
  obtain ⟨_, resync⟩ := wide resyncWhole resync
  obtain ⟨_, unrecognized⟩ := wide unrecognizedWhole unrecognized
  obtain ⟨_, dedup⟩ := wide dedupWhole dedup
  obtain ⟨_, image⟩ := text imageWhole
  obtain ⟨_, log⟩ := text logWhole
  obtain ⟨_, account⟩ := text accountWhole
  obtain ⟨_, manifest⟩ := text manifestWhole
  exact ⟨⟨_, _, _, _, _, _, _, _, _, _, _, _⟩, {
    workers := workers, apiPort := port, backoffBase := base, backoffMax := max, failed := failed
    resync := resync, unrecognized := unrecognized, image := ⟨_, image, rfl⟩
    hostLogPath := ⟨_, log, rfl⟩, serviceAccount := ⟨_, account, rfl⟩, dedup := dedup
    manifestPath := manifest }⟩

theorem fields_are_denoted :
    (∀ c, ofEnvironment env = .ok c → Loaded env c) ∧
      ((∃ c, ofEnvironment env = .ok c) ↔ Loadable env) := by
  simp only [ofEnvironment_eq_ok_iff]
  refine ⟨fun c parts => ?_, fun ⟨c, parts⟩ => ?_, fun loadable => loadable.parts distinct⟩
  · exact {
      number := fun f known => (parts.number distinct f known).2.1
      text := fun f known => (parts.text distinct f known).1
      number_left_out := fun f known => (parts.number distinct f known).2.2
      text_left_out := fun f known => (parts.text distinct f known).2 }
  · exact {
      whole := parts.whole
      number := fun f known v member sets =>
        have ⟨fits, denoted, _⟩ := parts.number distinct f known
        ⟨f.get c, fits, denoted v member sets⟩ }

end Main

theorem fields_are_denoted_of_mixed :
    let env : Environment := [("PODMONITOR_WORKERS", "0012"), ("podmonitor_api_port", "yes"),
      ("PODMONITOR_RESYNC_SECS", "+45"), ("PODMONITOR_HOST_LOG_PATH", "/srv/log")]
    let c : Config :=
      { workers := 12, apiPort := 1, resyncSeconds := 45, hostLogPath := "/srv/log" }
    ofEnvironment env = .ok c ∧ Loaded env c ∧ Loadable env := by
  intro env c
  have distinct : (env.map (fun v => lowered v.1)).Nodup := by decide +kernel
  have made : ofEnvironment env = .ok c := by rfl
  obtain ⟨loaded, loadable⟩ := fields_are_denoted distinct
  exact ⟨made, loaded c made, loadable.mp ⟨c, made⟩⟩

/-- What kind of value a text spells is decided before a field asks for a number or a text. A text
that spells a truth value, an integer or a real number is written anew, and a number is made of
words and of real numbers, which are rounded. -/
theorem fields_are_respelled :
    ofEnvironment [("PODMONITOR_MONITOR_IMAGE", "TRUE"), ("PODMONITOR_SERVICE_ACCOUNT", "007"),
        ("PODMONITOR_HOST_LOG_PATH", "1e5"), ("PODMONITOR_API_PORT", "yes"),
        ("PODMONITOR_WORKERS", "2.5"), ("PODMONITOR_RESYNC_SECS", "9223372036854775809")] =
      .ok {
        image := "true", serviceAccount := "7", hostLogPath := "100000", apiPort := 1, workers := 3
        resyncSeconds := 9223372036854775808 } := by
  rfl

end MonitorOperator.Config
