import DurableStreams.Storage.File.Operations

/-!
# Loading the directories at startup

`reopen` goes through the directories on disk and rebuilds an entry for each of them. `revive` is the
stream a directory contributes and `remains` is what is left of the directory itself. `Loading` is
the invariant of the loop: the directories that are still to come have contributed nothing, and
under every other name stands what its directory contributes. So the order in which the operating
system lists the directories makes no difference (`reopen_loads`).
-/

namespace DurableStreams.File

open Lib

/-- The names of all directories, each once, in some order. -/
def Lists (listing : List String) (disk : Disk) : Prop :=
  listing.Nodup ∧ ∀ dir, dir ∈ listing ↔ (disk.lookup dir).isSome

instance (listing : List String) (disk : Disk) : Decidable (Lists listing disk) :=
  decidable_of_iff (listing.Nodup ∧ listing.toFinset = disk.keys) <| by
    simp only [Lists, Finset.ext_iff, List.mem_toFinset, Finmap.mem_keys, Finmap.lookup_isSome]

/-- Every directory with metadata is the one its stream name leads to. -/
def WellNamed (disk : Disk) : Prop :=
  ∀ dir found saved, disk.lookup dir = some found → found.metaJson = some saved →
    dir = encodeName saved.name

/-- The stream a directory contributes: none if there is no metadata or the stream has expired. -/
def revive (now : Timestamp) (dir : String) (found : Dir) : Option StreamEntry :=
  match found.metaJson with
  | none => none
  | some saved =>
      if isStreamExpired now saved.config then none
      else some (loadEntry dir found.logBytes saved)

/-- What is left of a directory: the bytes behind the last complete record are cut off, and an
expired stream is removed. -/
def remains (now : Timestamp) (dir : String) (found : Dir) : Option Dir :=
  match found.metaJson with
  | none => some found
  | some saved =>
      if isStreamExpired now saved.config then none
      else some { found with
        log := some (found.logBytes.take (loadEntry dir found.logBytes saved).fileLen) }

/-- The loop of `load_existing_streams` with these directories still to come. -/
structure Loading (now : Timestamp) (disk : Disk) (todo : List String) (storage : FileStorage) :
    Prop where
  streams : ∀ name, storage.streams.lookup name =
    if encodeName name ∈ todo then none
    else (disk.lookup (encodeName name)).bind (revive now (encodeName name))
  total : storage.totalBytes =
    min (FiniteMap.total StreamEntry.totalBytes storage.streams) (2 ^ 64 - 1)
  dirs : ∀ dir, storage.disk.lookup dir =
    if dir ∈ todo then disk.lookup dir else (disk.lookup dir).bind (remains now dir)

variable {now : Timestamp} {disk : Disk} {dir : String} {todo : List String}
  {storage : FileStorage} {found : Dir}

/-- Directories stay well named if the changed one still carries its name. -/
theorem WellNamed.within {name : String} {actions : List DirAction} {saved : StreamMeta}
    (h : WellNamed disk) (hfound : disk.lookup (encodeName name) = some found)
    (hjson : (found.run actions).metaJson = some saved) (hname : saved.name = name) :
    WellNamed (Disk.within (encodeName name) actions disk) := by
  intro dir changed saved' hchanged hjson'
  rw [lookup_within] at hchanged
  split at hchanged
  · next heq =>
      rw [hfound, Option.map_some, Option.some.injEq] at hchanged
      rw [← hchanged, hjson, Option.some.injEq] at hjson'
      rw [heq, ← hjson', hname]
  · exact h dir changed saved' hchanged hjson'

/-- A directory that contributes nothing. -/
theorem Loading.skip {disk' : Disk} (h : Loading now disk (dir :: todo) storage)
    (hfound : disk.lookup dir = some found) (htodo : dir ∉ todo)
    (hnone : revive now dir found = none)
    (hdisk : ∀ other, disk'.lookup other =
      if other = dir then remains now dir found else storage.disk.lookup other) :
    Loading now disk todo { storage with disk := disk' } where
  streams name := by
    rw [h.streams]
    by_cases heq : encodeName name = dir
    · rw [heq, if_pos (List.mem_cons_self ..), if_neg htodo, hfound]
      exact hnone.symm
    · simp only [List.mem_cons, heq, false_or]
  total := h.total
  dirs other := by
    rw [hdisk, h.dirs]
    by_cases heq : other = dir
    · rw [heq, if_pos rfl, if_neg htodo, hfound]
      rfl
    · simp only [List.mem_cons, heq, false_or, ↓reduceIte]

/-- A directory that contributes a stream. -/
theorem Loading.load {name : String} {entry : StreamEntry} {left : Dir}
    (h : Loading now disk (encodeName name :: todo) storage)
    (hfound : disk.lookup (encodeName name) = some found) (htodo : encodeName name ∉ todo)
    (hsome : revive now (encodeName name) found = some entry)
    (hleft : remains now (encodeName name) found = some left) :
    Loading now disk todo
      { streams := storage.streams.insert name entry
        totalBytes := min (storage.totalBytes + entry.totalBytes) (2 ^ 64 - 1)
        disk := storage.disk.insert (encodeName name) left } where
  streams other := by
    dsimp only
    rw [FiniteMap.lookup_insert_ite]
    by_cases heq : other = name
    · rw [heq, if_pos rfl, if_neg htodo, hfound]
      exact hsome.symm
    · have hne : encodeName other ≠ encodeName name := fun h => heq (encode_name_inj h)
      rw [if_neg heq, h.streams]
      simp only [List.mem_cons, hne, false_or]
  total := by
    have hvacant : storage.streams.lookup name = none := by
      rw [h.streams, if_pos (List.mem_cons_self ..)]
    have hsum := FiniteMap.total_insert_new StreamEntry.totalBytes entry hvacant
    have htotal := h.total
    dsimp only
    omega
  dirs other := by
    dsimp only
    rw [FiniteMap.lookup_insert_ite]
    by_cases heq : other = encodeName name
    · rw [heq, if_pos rfl, if_neg htodo, hfound]
      exact hleft.symm
    · rw [if_neg heq, h.dirs]
      simp only [List.mem_cons, heq, false_or]

/-- Loading one directory keeps the invariant of the loop. -/
theorem load_stream_loading (hnamed : WellNamed disk) (hfound : disk.lookup dir = some found)
    (htodo : dir ∉ todo) (h : Loading now disk (dir :: todo) storage) :
    Loading now disk todo (loadStream now storage dir) := by
  have hdir : storage.disk.lookup dir = some found := by
    rw [h.dirs, if_pos (List.mem_cons_self ..), hfound]
  rw [loadStream, hdir]
  dsimp only
  cases hjson : found.metaJson with
  | none =>
      refine h.skip hfound htodo (by simp [revive, hjson]) fun other => ?_
      split
      · next heq =>
          rw [heq, hdir]
          simp [remains, hjson]
      · rfl
  | some saved =>
      obtain rfl := hnamed dir found saved hfound hjson
      have hconfig : (loadEntry (encodeName saved.name) found.logBytes saved).config =
          saved.config := rfl
      dsimp only
      rw [hconfig]
      split
      · next hexpired =>
          refine h.skip hfound htodo (by simp [revive, hjson, hexpired]) fun other => ?_
          rw [FiniteMap.lookup_erase_ite]
          simp [remains, hjson, hexpired]
      · next hlive =>
          exact h.load hfound htodo (by simp [revive, hjson, hlive])
            (by simp [remains, hjson, hlive])

/-- Loading all directories, in any order. -/
theorem reopen_loads (now : Timestamp) {listing : List String} (hlisting : Lists listing disk)
    (hnamed : WellNamed disk) : Loading now disk [] (reopen now listing disk) := by
  have hstart : Loading now disk listing ⟨∅, 0, disk⟩ := by
    have hmissing {dir : String} (hdir : dir ∉ listing) : disk.lookup dir = none := by
      rwa [hlisting.2, Option.not_isSome_iff_eq_none] at hdir
    refine ⟨fun name => ?_, rfl, fun dir => ?_⟩
    · dsimp only
      rw [Finmap.lookup_empty]
      split
      · rfl
      · next hname => rw [hmissing hname, Option.bind_none]
    · split
      · rfl
      · next hdir => exact (hmissing hdir).trans (by rw [hmissing hdir, Option.bind_none])
  have hloop (todo : List String) (storage : FileStorage) (hnodup : todo.Nodup)
      (hdirs : ∀ dir ∈ todo, (disk.lookup dir).isSome) (h : Loading now disk todo storage) :
      Loading now disk [] (todo.foldl (loadStream now) storage) := by
    induction todo generalizing storage with
    | nil => exact h
    | cons dir todo ih =>
        obtain ⟨htodo, hnodup⟩ := List.nodup_cons.mp hnodup
        obtain ⟨found, hfound⟩ := Option.isSome_iff_exists.mp (hdirs dir (List.mem_cons_self ..))
        exact ih _ hnodup (fun other hother => hdirs other (List.mem_cons_of_mem _ hother))
          (load_stream_loading hnamed hfound htodo h)
  exact hloop listing _ hlisting.1 (fun dir hdir => (hlisting.2 dir).mp hdir) hstart

/-- Reopening keeps the directories well named. -/
theorem WellNamed.reopen (now : Timestamp) {listing : List String} (hlisting : Lists listing disk)
    (h : WellNamed disk) : WellNamed (File.reopen now listing disk).disk := by
  intro dir left saved hleft hsaved
  rw [(reopen_loads now hlisting h).dirs, if_neg List.not_mem_nil] at hleft
  obtain ⟨before, hbefore, hremains⟩ := Option.bind_eq_some_iff.mp hleft
  refine h dir before saved hbefore ?_
  unfold remains at hremains
  split at hremains
  · obtain rfl := Option.some.inj hremains
    exact hsaved
  · split at hremains
    · cases hremains
    · obtain rfl := Option.some.inj hremains
      exact hsaved

end DurableStreams.File
