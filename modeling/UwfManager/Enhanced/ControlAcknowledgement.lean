import UwfManager.Enhanced.EnhancedModeChannel

/-!
# What an acknowledged control tells

Requests are numbered in the order the agent made them.  The frames of a connection
stay in that order from the write to the echo, the service applies them in that order,
and two requests with one id are further apart than the requests outstanding.
-/

namespace UwfManager

/-! ## Request ids -/

def requestIdOf (number : ℕ) : UInt64 := UInt64.ofNat (number % (2 ^ 64 - 1) + 1)

theorem toNat_requestIdOf (number : ℕ) :
    (requestIdOf number).toNat = number % (2 ^ 64 - 1) + 1 := by
  have hlt : number % (2 ^ 64 - 1) < 2 ^ 64 - 1 := Nat.mod_lt _ (by decide)
  rw [requestIdOf, UInt64.toNat_ofNat']
  exact Nat.mod_eq_of_lt (by omega)

theorem requestIdOf_ne_zero (number : ℕ) : requestIdOf number ≠ 0 := by
  intro hzero
  have htoNat := toNat_requestIdOf number
  rw [hzero] at htoNat
  simp at htoNat

theorem requestIdAfter_requestIdOf (number : ℕ) :
    requestIdAfter (requestIdOf number) = requestIdOf (number + 1) := by
  have hlt : number % (2 ^ 64 - 1) < 2 ^ 64 - 1 := Nat.mod_lt _ (by decide)
  apply UInt64.toNat_inj.1
  rw [requestIdAfter, toNat_requestIdOf, toNat_requestIdOf]
  split_ifs with hlast
  · have hwrapped : (number + 1) % (2 ^ 64 - 1) = 0 := by omega
    rw [hwrapped]
    rfl
  · have hnext : (number + 1) % (2 ^ 64 - 1) = number % (2 ^ 64 - 1) + 1 := by omega
    rw [UInt64.toNat_add, toNat_requestIdOf, hnext]
    exact Nat.mod_eq_of_lt (by change _ + 1 < 2 ^ 64; omega)

/-- Requests with one id are equal or a whole turn of the counter apart. -/
theorem eq_of_requestIdOf_eq {earlier later : ℕ} (hle : earlier ≤ later)
    (hnear : later - earlier < 2 ^ 64 - 1) (hid : requestIdOf earlier = requestIdOf later) :
    earlier = later := by
  have hmod := congrArg UInt64.toNat hid
  rw [toNat_requestIdOf, toNat_requestIdOf, Nat.add_right_cancel_iff] at hmod
  omega

namespace ControlWorld

variable {world : ControlWorld}

/-! ## The frames of a connection -/

/-- The requests under way on a connection, the oldest first: the echoes the agent has
not read, the one the service holds, and those the service has not read. -/
def pipeline (world : ControlWorld) (connection : ℕ) : List ControlRequest :=
  (world.echoes connection).map ControlFrame.request ++
    ((if connection = world.service.served then world.service.serving.held else []) ++
      (world.requests connection).map ControlFrame.request)

/-- What the service has still to apply on the connection it serves. -/
def unapplied (world : ControlWorld) : List ControlRequest :=
  world.service.serving.unapplied ++
    (world.requests world.service.served).map ControlFrame.request

/-- What has been applied and waits for the agent. -/
def Echoed (world : ControlWorld) (request : ControlRequest) : Prop :=
  (∃ connection, request ∈ (world.echoes connection).map ControlFrame.request) ∨
    request ∈ world.service.serving.echoed

/-- The request is the one made at its place. -/
def Made (world : ControlWorld) (request : ControlRequest) : Prop :=
  world.history[request.number]? = some request.message

theorem Made.lt {request : ControlRequest} (hmade : world.Made request) :
    request.number < world.history.length :=
  (List.getElem?_eq_some_iff.1 hmade).1

theorem mem_pipeline_of_mem_unapplied {request : ControlRequest}
    (hunapplied : request ∈ world.unapplied) :
    request ∈ world.pipeline world.service.served := by
  rw [unapplied] at hunapplied
  rw [pipeline, if_pos rfl]
  rcases List.mem_append.1 hunapplied with hheld | hqueued
  · apply List.mem_append_right
    apply List.mem_append_left
    revert hheld
    cases world.service.serving <;> simp [Serving.unapplied, Serving.held]
  · exact List.mem_append_right _ (List.mem_append_right _ hqueued)

/-! ## The invariant -/

/-- What holds of a `sendControl` that has not returned. -/
structure PendingSound (world : ControlWorld) (pending : PendingControl) : Prop where
  newest : pending.frame.request.number + 1 = world.history.length
  made : world.Made pending.frame.request
  published : pending.connection < world.published
  unwritten : pending.written = false →
    (∀ connection, ∀ request ∈ world.pipeline connection,
      request.number < pending.frame.request.number) ∧
    (∀ request ∈ world.applied, request.number < pending.frame.request.number) ∧
    (world.agent.pipe = some pending.connection →
      world.answered ≤ pending.frame.request.number)

structure Sound (world : ControlWorld) : Prop where
  nextRequestId : world.agent.nextRequestId = requestIdOf world.history.length
  ids : ∀ number message, world.history[number]? = some message →
    message.requestId = requestIdOf number
  ordered : ∀ connection, (world.pipeline connection).Pairwise fun earlier later =>
    earlier.number < later.number
  made : ∀ connection, ∀ request ∈ world.pipeline connection, world.Made request
  unpublished : ∀ connection, world.published ≤ connection → world.pipeline connection = []
  published : world.published ≤ world.service.served + 1
  pipe : ∀ connection, world.agent.pipe = some connection → connection < world.published ∧
    ∀ request ∈ world.pipeline connection, world.answered ≤ request.number
  lastAcknowledgement : ∀ request, world.agent.lastAcknowledgement = some request →
    request.number + 1 = world.answered ∧ request ∈ world.applied
  answered : world.answered ≤ world.history.length
  pending : ∀ pending, world.pending = some pending → world.PendingSound pending
  appliedOrdered : world.applied.Pairwise fun earlier later => earlier.number < later.number
  appliedMade : ∀ request ∈ world.applied, world.Made request
  appliedBefore : ∀ earlier ∈ world.applied, ∀ later ∈ world.unapplied,
    earlier.number < later.number
  echoed : ∀ request, world.Echoed request → request ∈ world.applied
  results : ∀ result ∈ world.results, world.Made result.request ∧
    (result.acknowledged = true →
      result.acknowledgement = some result.request ∧ result.request ∈ world.applied)

theorem sound_initial : Sound {} where
  nextRequestId := rfl
  ids := by simp
  ordered := by simp [pipeline, Serving.held]
  made := by simp [pipeline, Serving.held]
  unpublished := by simp [pipeline, Serving.held]
  published := Nat.zero_le _
  pipe := by simp
  lastAcknowledgement := by simp
  answered := le_refl _
  pending := by simp
  appliedOrdered := List.Pairwise.nil
  appliedMade := by simp
  appliedBefore := by simp
  echoed := by simp [Echoed, Serving.echoed]
  results := by simp

/-! ## Steps of the service -/

/-- What the pipes lose, and what moves in them, keeps the invariant. -/
theorem Sound.shrink (hsound : world.Sound) {service : ControlService}
    {requests echoes : ℕ → List ControlFrame}
    (hserved : world.service.served ≤ service.served)
    (hpipeline : ∀ connection,
      List.Sublist
        ({ world with service := service, requests := requests, echoes := echoes }.pipeline
          connection) (world.pipeline connection))
    (hunapplied : ∀ request ∈
      { world with service := service, requests := requests, echoes := echoes }.unapplied,
        request ∈ world.unapplied)
    (hechoed : ∀ request,
      { world with service := service, requests := requests, echoes := echoes }.Echoed request →
        world.Echoed request) :
    { world with service := service, requests := requests, echoes := echoes }.Sound :=
  { hsound with
    ordered := fun connection => (hsound.ordered connection).sublist (hpipeline connection)
    made := fun connection request hrequest =>
      hsound.made connection request ((hpipeline connection).subset hrequest)
    unpublished := fun connection hconnection => by
      have hsublist := hpipeline connection
      rw [hsound.unpublished connection hconnection] at hsublist
      exact List.sublist_nil.1 hsublist
    published := hsound.published.trans (Nat.succ_le_succ hserved)
    pipe := fun connection hconnection =>
      ⟨(hsound.pipe connection hconnection).1, fun request hrequest =>
        (hsound.pipe connection hconnection).2 request ((hpipeline connection).subset hrequest)⟩
    pending := fun pending hpending =>
      have hkept := hsound.pending pending hpending
      { hkept with
        unwritten := fun hwritten =>
          have hunwritten := hkept.unwritten hwritten
          ⟨fun connection request hrequest =>
            hunwritten.1 connection request ((hpipeline connection).subset hrequest),
            hunwritten.2⟩ }
    appliedBefore := fun earlier hearlier later hlater =>
      hsound.appliedBefore earlier hearlier later (hunapplied later hlater)
    echoed := fun request hrequest => hsound.echoed request (hechoed request hrequest) }

theorem sound_serviceRead (hsound : world.Sound) : world.serviceRead.Sound := by
  rw [serviceRead]
  split
  · next frame rest hserving hrequests =>
      have hpipeline : ∀ connection,
          { world with
            service := { world.service with serving := .handling frame }
            requests := Function.update world.requests world.service.served rest }.pipeline
              connection = world.pipeline connection := by
        intro connection
        by_cases hserved : connection = world.service.served
        · simp [pipeline, hserved, hserving, hrequests, Serving.held]
        · simp [pipeline, hserved]
      have hechoed : ∀ request, Echoed
          { world with
            service := { world.service with serving := .handling frame }
            requests := Function.update world.requests world.service.served rest } request →
          world.Echoed request := by
        rintro request (hqueued | hheld)
        · exact Or.inl hqueued
        · exact absurd hheld List.not_mem_nil
      refine hsound.shrink (le_refl _) ?_ ?_ ?_
      · intro connection
        rw [hpipeline connection]
      · intro request hrequest
        simpa [unapplied, hserving, hrequests, Serving.unapplied] using hrequest
      · exact hechoed
  · exact hsound

theorem pipeline_serviceDrop (connection : ℕ) :
    (world.serviceDrop.pipeline connection).Sublist (world.pipeline connection) := by
  have hheld : world.serviceDrop.pipeline connection =
      (world.echoes connection).map ControlFrame.request ++
        (world.requests connection).map ControlFrame.request := by
    rw [pipeline]
    split <;> rfl
  rw [hheld, pipeline]
  exact List.Sublist.append (List.Sublist.refl _) (List.sublist_append_right _ _)

theorem sound_serviceDrop (hsound : world.Sound) : world.serviceDrop.Sound := by
  refine hsound.shrink (Nat.le_succ _) ?_ ?_ ?_
  · exact fun connection => pipeline_serviceDrop connection
  · intro request hrequest
    have hnext : world.pipeline (world.service.served + 1) = [] :=
      hsound.unpublished _ hsound.published
    have hmem := (pipeline_serviceDrop _).subset (mem_pipeline_of_mem_unapplied hrequest)
    exact absurd (hnext ▸ hmem) List.not_mem_nil
  · rintro request (hqueued | hheld)
    · exact Or.inl hqueued
    · exact absurd hheld List.not_mem_nil

theorem sound_serviceApply (hsound : world.Sound) (now : ℕ) : (world.serviceApply now).Sound := by
  rw [serviceApply]
  cases hserving : world.service.serving with
  | reading => exact hsound
  | echoing frame => exact hsound
  | handling frame =>
      dsimp only
      rw [frame.decode_frame]
      dsimp only
      have hunapplied : world.unapplied = frame.request ::
          (world.requests world.service.served).map ControlFrame.request := by
        rw [unapplied, hserving]
        rfl
      have hfirst : frame.request ∈ world.unapplied := by
        rw [hunapplied]
        exact List.mem_cons_self
      have hmade : world.Made frame.request :=
        hsound.made _ _ (mem_pipeline_of_mem_unapplied hfirst)
      have hbefore : ∀ earlier ∈ world.applied, earlier.number < frame.request.number :=
        fun earlier hearlier => hsound.appliedBefore earlier hearlier _ hfirst
      have hpipeline : ∀ connection,
          pipeline { world with
            service := { world.service with
              serving := .echoing frame
              preshutdownSkipDeadline := applyPreshutdownControl now frame.request.message.control }
            applied := world.applied ++ [frame.request] } connection =
          world.pipeline connection := by
        intro connection
        simp [pipeline, hserving, Serving.held]
      refine { hsound with
        ordered := ?_, made := ?_, unpublished := ?_, pipe := ?_, lastAcknowledgement := ?_
        pending := ?_, appliedOrdered := ?_, appliedMade := ?_, appliedBefore := ?_, echoed := ?_
        results := ?_ }
      · intro connection
        rw [hpipeline]
        exact hsound.ordered connection
      · intro connection
        rw [hpipeline]
        exact hsound.made connection
      · intro connection
        rw [hpipeline]
        exact hsound.unpublished connection
      · intro connection
        rw [hpipeline]
        exact hsound.pipe connection
      · intro request hrequest
        have hkept := hsound.lastAcknowledgement request hrequest
        exact ⟨hkept.1, List.mem_append_left _ hkept.2⟩
      · intro pending hpending
        have hkept := hsound.pending pending hpending
        refine { hkept with unwritten := ?_ }
        intro hwritten
        have hunwritten := hkept.unwritten hwritten
        refine ⟨?_, ?_, hunwritten.2.2⟩
        · intro connection
          rw [hpipeline]
          exact hunwritten.1 connection
        · intro request hrequest
          rcases List.mem_append.1 hrequest with hearlier | hlast
          · exact hunwritten.2.1 request hearlier
          · rw [List.mem_singleton.1 hlast]
            exact hunwritten.1 _ _ (mem_pipeline_of_mem_unapplied hfirst)
      · apply List.pairwise_append.2
        refine ⟨hsound.appliedOrdered, List.pairwise_singleton _ _, ?_⟩
        intro earlier hearlier later hlater
        rw [List.mem_singleton.1 hlater]
        exact hbefore earlier hearlier
      · intro request hrequest
        rcases List.mem_append.1 hrequest with hearlier | hlast
        · exact hsound.appliedMade request hearlier
        · rw [List.mem_singleton.1 hlast]
          exact hmade
      · intro earlier hearlier later hlater
        have hqueued : later ∈ (world.requests world.service.served).map ControlFrame.request :=
          hlater
        rcases List.mem_append.1 hearlier with happlied | hlast
        · exact hsound.appliedBefore earlier happlied later
            (hunapplied ▸ List.mem_cons_of_mem _ hqueued)
        · rw [List.mem_singleton.1 hlast]
          have hordered := hsound.ordered world.service.served
          rw [pipeline, if_pos rfl, hserving] at hordered
          exact (List.pairwise_cons.1 (List.pairwise_append.1 hordered).2.1).1 later hqueued
      · rintro request (hqueued | hheld)
        · exact List.mem_append_left _ (hsound.echoed request (Or.inl hqueued))
        · exact List.mem_append_right _ hheld
      · intro result hresult
        have hkept := hsound.results result hresult
        exact ⟨hkept.1, fun hacknowledged => ⟨(hkept.2 hacknowledged).1,
          List.mem_append_left _ (hkept.2 hacknowledged).2⟩⟩

/-- Echoing moves the held frame to the end of the echoes. -/
theorem pipeline_echo {frame : ControlFrame} (hserving : world.service.serving = .echoing frame)
    (connection : ℕ) :
    pipeline { world with
        echoes := push world.echoes world.service.served frame
        service := { world.service with serving := .reading } } connection =
      world.pipeline connection := by
  by_cases hserved : connection = world.service.served
  · subst hserved
    simp [pipeline, push, hserving, Serving.held]
  · simp [pipeline, push, hserved]

theorem sound_echo (hsound : world.Sound) {frame : ControlFrame}
    (hserving : world.service.serving = .echoing frame) :
    Sound { world with
      echoes := push world.echoes world.service.served frame
      service := { world.service with serving := .reading } } := by
  refine hsound.shrink (le_refl _) ?_ ?_ ?_
  · intro connection
    rw [pipeline_echo hserving]
  · intro request hrequest
    exact List.mem_append_right _ hrequest
  · rintro request (⟨connection, hqueued⟩ | hheld)
    · change request ∈ (push world.echoes world.service.served frame connection).map _ at hqueued
      by_cases hserved : connection = world.service.served
      · rw [hserved, push, Function.update_self, List.map_append] at hqueued
        rcases List.mem_append.1 hqueued with hearlier | hlast
        · exact Or.inl ⟨_, hearlier⟩
        · right
          rw [hserving]
          exact hlast
      · rw [push, Function.update_of_ne hserved] at hqueued
        exact Or.inl ⟨connection, hqueued⟩
    · exact absurd hheld List.not_mem_nil

theorem sound_serviceEcho (hsound : world.Sound) (outcome : PipeWrite) :
    (world.serviceEcho outcome).Sound := by
  rw [serviceEcho]
  cases hserving : world.service.serving with
  | reading => exact hsound
  | handling frame => exact hsound
  | echoing frame =>
      cases outcome with
      | completed => exact sound_echo hsound hserving
      | failed delivered =>
          cases delivered with
          | false => exact sound_serviceDrop hsound
          | true =>
              dsimp only
              rw [if_pos rfl]
              have hdropped := sound_serviceDrop (sound_echo hsound hserving)
              exact hdropped

theorem sound_pipeLost (hsound : world.Sound) (connection : ℕ) :
    (world.pipeLost connection).Sound := by
  have hrequests : ∀ other, (((world.pipeLost connection).requests other).map
      ControlFrame.request).Sublist ((world.requests other).map ControlFrame.request) := by
    intro other
    change ((Function.update world.requests connection [] other).map _).Sublist _
    by_cases hother : other = connection
    · simp [hother]
    · rw [Function.update_of_ne hother]
  have hechoes : ∀ other, (((world.pipeLost connection).echoes other).map
      ControlFrame.request).Sublist ((world.echoes other).map ControlFrame.request) := by
    intro other
    change ((Function.update world.echoes connection [] other).map _).Sublist _
    by_cases hother : other = connection
    · simp [hother]
    · rw [Function.update_of_ne hother]
  refine hsound.shrink (le_refl _) ?_ ?_ ?_
  · exact fun other =>
      (hechoes other).append ((List.Sublist.refl _).append (hrequests other))
  · intro request hrequest
    exact ((List.Sublist.refl _).append (hrequests _)).subset hrequest
  · rintro request (⟨other, hqueued⟩ | hheld)
    · exact Or.inl ⟨other, (hechoes other).subset hqueued⟩
    · exact Or.inr hheld

theorem sound_preshutdown (hsound : world.Sound) (now : ℕ) : (world.preshutdown now).Sound :=
  hsound.shrink (le_refl _) (fun _ => List.Sublist.refl _) (fun _ hrequest => hrequest)
    (fun _ hechoed => hechoed)

/-! ## Steps of the agent -/

/-- A control that returns leaves its result. -/
theorem Sound.finish (hsound : world.Sound) {pending : PendingControl}
    (hpending : world.Made pending.frame.request) {acknowledged : Bool}
    (hacknowledged : acknowledged = true →
      world.agent.lastAcknowledgement = some pending.frame.request) :
    (world.finish pending acknowledged).Sound :=
  { hsound with
    pending := fun _ hnone => nomatch hnone
    results := fun result hresult => by
      rcases List.mem_append.1 hresult with hearlier | hlast
      · exact hsound.results result hearlier
      · rw [List.mem_singleton.1 hlast]
        refine ⟨hpending, fun htrue => ?_⟩
        have hlastAcknowledgement := hacknowledged htrue
        exact ⟨hlastAcknowledgement,
          (hsound.lastAcknowledgement _ hlastAcknowledgement).2⟩ }

theorem sound_sendControl (hsound : world.Sound) (control : EnhancedAgentControl) :
    (world.sendControl control).Sound := by
  rw [sendControl]
  split
  · next connection hnone hpipe =>
      have hid : world.agent.nextRequestId = requestIdOf world.history.length :=
        hsound.nextRequestId
      have hframe := @ControlFrame.make_of_ne_zero
        ⟨world.history.length, ⟨control, world.agent.nextRequestId⟩⟩
        (hid ▸ requestIdOf_ne_zero _)
      obtain ⟨frame, hmake, hrequest⟩ := hframe
      dsimp only
      rw [hmake]
      dsimp only
      have hlength : ∀ message : EnhancedAgentControlMessage,
          (world.history ++ [message]).length = world.history.length + 1 := by simp
      have hmade : ∀ {request : ControlRequest}, world.Made request →
          ∀ message, (world.history ++ [message])[request.number]? = some request.message := by
        intro request hrequest message
        rw [List.getElem?_append_left hrequest.lt]
        exact hrequest
      have hnew : (world.history ++ [⟨control, world.agent.nextRequestId⟩])[frame.request.number]? =
          some frame.request.message := by
        rw [hrequest]
        simp
      exact { hsound with
        nextRequestId := by
          rw [hlength, hid, requestIdAfter_requestIdOf]
        ids := by
          intro number message hmessage
          rcases Nat.lt_trichotomy number world.history.length with hlt | heq | hgt
          · rw [List.getElem?_append_left hlt] at hmessage
            exact hsound.ids number message hmessage
          · rw [heq, List.getElem?_concat_length] at hmessage
            rw [← Option.some.inj hmessage, heq]
            exact hid
          · rw [List.getElem?_eq_none (by rw [hlength]; exact hgt)] at hmessage
            exact absurd hmessage (by simp)
        made := fun connection request hmem => hmade (hsound.made connection request hmem) _
        answered := by
          rw [hlength]
          exact hsound.answered.trans (Nat.le_succ _)
        appliedMade := fun request hmem => hmade (hsound.appliedMade request hmem) _
        results := fun result hmem =>
          ⟨hmade (hsound.results result hmem).1 _, (hsound.results result hmem).2⟩
        pending := by
          intro pending hpending
          obtain rfl := Option.some.inj hpending
          have hnumber : frame.request.number = world.history.length := by rw [hrequest]
          exact
            { newest := by rw [hlength, hnumber]
              made := hnew
              published := (hsound.pipe connection hpipe).1
              unwritten := fun _ => by
                refine ⟨?_, ?_, ?_⟩
                · intro other request hmem
                  change request.number < frame.request.number
                  rw [hnumber]
                  exact (hsound.made other request hmem).lt
                · intro request hmem
                  change request.number < frame.request.number
                  rw [hnumber]
                  exact (hsound.appliedMade request hmem).lt
                · intro _
                  change world.answered ≤ frame.request.number
                  rw [hnumber]
                  exact hsound.answered } }
  · exact hsound

theorem pipeline_push (connection other : ℕ) (frame : ControlFrame) :
    pipeline { world with requests := push world.requests connection frame } other =
      if other = connection then world.pipeline other ++ [frame.request]
      else world.pipeline other := by
  split_ifs with hother
  · subst hother
    simp [pipeline, push]
  · simp [pipeline, push, hother]

theorem mem_pipeline_push {connection other : ℕ} {frame : ControlFrame} {request : ControlRequest}
    (hmem : request ∈
      pipeline { world with requests := push world.requests connection frame } other) :
    request ∈ world.pipeline other ∨ request = frame.request ∧ other = connection := by
  rw [pipeline_push] at hmem
  split_ifs at hmem with hother
  · rcases List.mem_append.1 hmem with hearlier | hlast
    · exact Or.inl hearlier
    · exact Or.inr ⟨List.mem_singleton.1 hlast, hother⟩
  · exact Or.inl hmem

/-- The frame is newer than all that is under way. -/
theorem sound_push (hsound : world.Sound) {pending : PendingControl}
    (hpending : world.pending = some pending) (hwritten : pending.written = false) :
    Sound { world with
      requests := push world.requests pending.connection pending.frame
      pending := some { pending with written := true } } := by
  have hkept := hsound.pending pending hpending
  obtain ⟨hpipeline, happlied, hanswered⟩ := hkept.unwritten hwritten
  exact { hsound with
    ordered := by
      intro connection
      change List.Pairwise _ (pipeline { world with
        requests := push world.requests pending.connection pending.frame } connection)
      rw [pipeline_push]
      split_ifs with hconnection
      · apply List.pairwise_append.2
        refine ⟨hsound.ordered connection, List.pairwise_singleton _ _, ?_⟩
        intro earlier hearlier later hlater
        rw [List.mem_singleton.1 hlater]
        exact hpipeline connection earlier hearlier
      · exact hsound.ordered connection
    made := by
      intro connection request hrequest
      rcases mem_pipeline_push hrequest with hmem | ⟨rfl, -⟩
      · exact hsound.made connection request hmem
      · exact hkept.made
    unpublished := by
      intro connection hconnection
      change pipeline { world with
        requests := push world.requests pending.connection pending.frame } connection = []
      have hother : connection ≠ pending.connection := by
        have hpublished := hkept.published
        have hle : world.published ≤ connection := hconnection
        omega
      rw [pipeline_push, if_neg hother]
      exact hsound.unpublished connection hconnection
    pipe := by
      intro connection hconnection
      refine ⟨(hsound.pipe connection hconnection).1, ?_⟩
      intro request hrequest
      rcases mem_pipeline_push hrequest with hmem | ⟨rfl, rfl⟩
      · exact (hsound.pipe connection hconnection).2 request hmem
      · exact hanswered hconnection
    pending := by
      intro after hafter
      obtain rfl := Option.some.inj hafter
      exact { hkept with unwritten := fun hfalse => nomatch hfalse }
    appliedBefore := by
      intro earlier hearlier later hlater
      have hmem : later ∈ world.service.serving.unapplied ++
          (push world.requests pending.connection pending.frame world.service.served).map
            ControlFrame.request := hlater
      by_cases hserved : world.service.served = pending.connection
      · rw [hserved, push, Function.update_self, List.map_append, ← List.append_assoc] at hmem
        rcases List.mem_append.1 hmem with hunapplied | hlast
        · apply hsound.appliedBefore earlier hearlier later
          rw [unapplied, hserved]
          exact hunapplied
        · rw [List.mem_singleton.1 hlast]
          exact happlied earlier hearlier
      · rw [push, Function.update_of_ne hserved] at hmem
        exact hsound.appliedBefore earlier hearlier later hmem
    echoed := fun request hechoed => hsound.echoed request hechoed }

theorem sound_writeRequest (hsound : world.Sound) (outcome : PipeWrite) :
    (world.writeRequest outcome).Sound := by
  rw [writeRequest]
  cases hpending : world.pending with
  | none => exact hsound
  | some pending =>
      dsimp only
      split_ifs with hwritten
      · exact hsound
      · have hmade := (hsound.pending pending hpending).made
        have hpushed := sound_push hsound hpending (Bool.eq_false_iff.2 hwritten)
        cases outcome with
        | completed => exact hpushed
        | failed delivered =>
            cases delivered with
            | false => exact hsound.finish hmade (fun hfalse => nomatch hfalse)
            | true =>
                dsimp only
                rw [if_pos rfl]
                exact hpushed.finish hmade (fun hfalse => nomatch hfalse)

/-- The acknowledgement has the id of the newest request, and it cannot be a whole turn
of the counter older. -/
theorem Sound.acknowledged (hsound : world.Sound) (hfew : world.outstanding < 2 ^ 64 - 1)
    {pending : PendingControl} (hpending : world.pending = some pending)
    (hmessage : world.agent.lastAcknowledgement.map ControlRequest.message =
      some pending.frame.request.message) :
    world.agent.lastAcknowledgement = some pending.frame.request := by
  obtain ⟨request, hlast, hsame⟩ := Option.map_eq_some_iff.1 hmessage
  have hkept := hsound.pending pending hpending
  obtain ⟨hanswered, happlied⟩ := hsound.lastAcknowledgement request hlast
  have hmade := hsound.appliedMade request happlied
  have hid : requestIdOf request.number = requestIdOf pending.frame.request.number := by
    calc requestIdOf request.number
        = request.message.requestId := (hsound.ids _ _ hmade).symm
      _ = pending.frame.request.message.requestId := by rw [hsame]
      _ = requestIdOf pending.frame.request.number := hsound.ids _ _ hkept.made
  have hlt := hmade.lt
  have hnewest := hkept.newest
  rw [outstanding] at hfew
  have hnumber : request.number = pending.frame.request.number :=
    eq_of_requestIdOf_eq (by omega) (by omega) hid
  rw [hlast]
  congr 1
  calc request = ⟨request.number, request.message⟩ := rfl
    _ = pending.frame.request := by rw [hnumber, hsame]

theorem sound_wake (hsound : world.Sound) (hfew : world.outstanding < 2 ^ 64 - 1)
    (timedOut : Bool) : (world.wake timedOut).Sound := by
  rw [wake]
  cases hpending : world.pending with
  | none => exact hsound
  | some pending =>
      have hmade := (hsound.pending pending hpending).made
      dsimp only
      split_ifs with hwritten hready htimedOut
      · apply hsound.finish hmade
        intro hacknowledged
        rw [Bool.and_eq_true, decide_eq_true_eq, decide_eq_true_eq] at hacknowledged
        exact hsound.acknowledged hfew hpending hacknowledged.2
      · exact hsound.finish hmade (fun hfalse => nomatch hfalse)
      · exact hsound
      · exact hsound

theorem sound_agentConnect (hsound : world.Sound) (connection : ℕ) :
    (world.agentConnect connection).Sound := by
  rw [agentConnect]
  split_ifs with hguard
  · obtain ⟨-, hpublished, hserved⟩ := hguard
    exact { hsound with
      unpublished := by
        intro other hother
        have hle : connection + 1 ≤ other := hother
        exact hsound.unpublished other (by omega)
      published := Nat.succ_le_succ hserved
      pipe := by
        intro other hother
        obtain rfl : connection = other := Option.some.inj hother
        refine ⟨Nat.lt_succ_self connection, fun request hrequest => ?_⟩
        have hempty : world.pipeline connection = [] := hsound.unpublished connection hpublished
        have hmem : request ∈ world.pipeline connection := hrequest
        rw [hempty] at hmem
        exact absurd hmem List.not_mem_nil
      lastAcknowledgement := fun _ hnone => nomatch hnone
      answered := le_refl _
      pending := by
        intro pending hpending
        have hkept := hsound.pending pending hpending
        have hbefore := hkept.published
        refine { hkept with published := ?_, unwritten := ?_ }
        · change pending.connection < connection + 1
          omega
        · intro hwritten
          have hunwritten := hkept.unwritten hwritten
          refine ⟨hunwritten.1, hunwritten.2.1, fun hsame => ?_⟩
          have hconnection : connection = pending.connection := Option.some.inj hsame
          omega }
  · exact hsound

theorem sound_agentDisconnect (hsound : world.Sound) : world.agentDisconnect.Sound := by
  rw [agentDisconnect]
  split
  · exact hsound
  · exact { hsound with
      pipe := fun _ hnone => nomatch hnone
      lastAcknowledgement := fun _ hnone => nomatch hnone
      pending := fun pending hpending =>
        have hkept := hsound.pending pending hpending
        { hkept with
          unwritten := fun hwritten =>
            have hunwritten := hkept.unwritten hwritten
            ⟨hunwritten.1, hunwritten.2.1, fun hnone => nomatch hnone⟩ } }

/-- The agent takes the oldest request of its connection. -/
theorem pipeline_read {connection : ℕ} {frame : ControlFrame} {rest : List ControlFrame}
    (hechoes : world.echoes connection = frame :: rest) :
    world.pipeline connection = frame.request ::
      pipeline { world with echoes := Function.update world.echoes connection rest } connection := by
  simp [pipeline, hechoes]

theorem sound_read (hsound : world.Sound) {connection : ℕ} {frame : ControlFrame}
    {rest : List ControlFrame} (hechoes : world.echoes connection = frame :: rest) :
    Sound { world with echoes := Function.update world.echoes connection rest } := by
  have hqueue : ∀ other, ((Function.update world.echoes connection rest other).map
      ControlFrame.request).Sublist ((world.echoes other).map ControlFrame.request) := by
    intro other
    by_cases hother : other = connection
    · rw [hother, Function.update_self, hechoes]
      exact List.sublist_cons_self _ _
    · rw [Function.update_of_ne hother]
  refine hsound.shrink (le_refl _) ?_ ?_ ?_
  · exact fun other => (hqueue other).append (List.Sublist.refl _)
  · exact fun request hrequest => hrequest
  · rintro request (⟨other, hqueued⟩ | hheld)
    · exact Or.inl ⟨other, (hqueue other).subset hqueued⟩
    · exact Or.inr hheld

theorem sound_agentRead (hsound : world.Sound) : world.agentRead.Sound := by
  rw [agentRead]
  cases hpipe : world.agent.pipe with
  | none => exact hsound
  | some connection =>
      dsimp only
      cases hechoes : world.echoes connection with
      | nil => exact hsound
      | cons frame rest =>
          dsimp only
          rw [frame.decode_frame]
          dsimp only
          have hread := sound_read hsound hechoes
          have hpipeline := pipeline_read hechoes
          have hfirst : frame.request ∈ world.pipeline connection := by
            rw [hpipeline]
            exact List.mem_cons_self
          have hmade := hsound.made connection _ hfirst
          have hordered := hsound.ordered connection
          rw [hpipeline] at hordered
          have happlied : frame.request ∈ world.applied :=
            hsound.echoed _ (Or.inl ⟨connection, by
              rw [hechoes]
              exact List.mem_cons_self⟩)
          exact { hread with
            pipe := by
              intro other hother
              have hsame : world.agent.pipe = some other := hother
              obtain rfl : connection = other := Option.some.inj (hpipe.symm.trans hsame)
              refine ⟨(hsound.pipe connection hpipe).1, fun request hrequest => ?_⟩
              exact (List.pairwise_cons.1 hordered).1 request hrequest
            lastAcknowledgement := by
              intro request hrequest
              obtain rfl := Option.some.inj hrequest
              exact ⟨rfl, happlied⟩
            answered := hmade.lt
            pending := by
              intro pending hpending
              have hkept := hread.pending pending hpending
              refine { hkept with unwritten := ?_ }
              intro hwritten
              have hunwritten := hkept.unwritten hwritten
              have hnewer := (hsound.pending pending hpending).unwritten hwritten
              exact ⟨hunwritten.1, hunwritten.2.1, fun _ => hnewer.1 connection _ hfirst⟩ }

/-! ## Runs -/

theorem outstanding_wake (world : ControlWorld) (timedOut : Bool) :
    (world.wake timedOut).outstanding = world.outstanding := by
  rw [wake]
  cases world.pending with
  | none => rfl
  | some pending =>
      dsimp only
      split_ifs <;> rfl

theorem sound_step (hsound : world.Sound) (action : ControlAction)
    (hfew : FewOutstanding world action) : (world.step action).Sound := by
  cases action with
  | sendControl control => exact sound_sendControl hsound control
  | writeRequest outcome => exact sound_writeRequest hsound outcome
  | wake timedOut => exact sound_wake hsound (outstanding_wake world timedOut ▸ hfew) timedOut
  | agentConnect connection => exact sound_agentConnect hsound connection
  | agentDisconnect => exact sound_agentDisconnect hsound
  | agentRead => exact sound_agentRead hsound
  | serviceRead => exact sound_serviceRead hsound
  | serviceApply now => exact sound_serviceApply hsound now
  | serviceEcho outcome => exact sound_serviceEcho hsound outcome
  | serviceDrop => exact sound_serviceDrop hsound
  | pipeLost connection => exact sound_pipeLost hsound connection
  | preshutdown now => exact sound_preshutdown hsound now

theorem sound_run {actions : List ControlAction}
    (hguarded : GuardedRun.Guarded step FewOutstanding {} actions) :
    (actions.foldl step {}).Sound :=
  @GuardedRun.preserved _ _ step FewOutstanding Sound
    (fun _ action hsound hfew => sound_step hsound action hfew) {} actions sound_initial hguarded

/-! ## The token of the service -/

/-- What the service does about its token. -/
inductive TokenEvent where
  | control (request : ControlRequest) (now : ℕ)
  | preshutdown (now : ℕ)
  deriving DecidableEq

namespace TokenEvent

def request? : TokenEvent → Option ControlRequest
  | control request _ => some request
  | preshutdown _ => none

/-- The deadline the event leaves: a handled commit may be skipped for the lifetime of the
token, a required one may not, and a preshutdown uses the token up. -/
def deadline : TokenEvent → Option ℕ
  | control request now =>
      if request.message.control = .preshutdownCommitHandled then
        some (now + kPreshutdownSkipLifetime)
      else none
  | preshutdown _ => none

end TokenEvent

/-- The service acts on the request whose frame it holds. -/
def tokenEvent (world : ControlWorld) : ControlAction → Option TokenEvent
  | .serviceApply now =>
      match world.service.serving with
      | .handling frame => some (.control frame.request now)
      | _ => none
  | .preshutdown now => some (.preshutdown now)
  | _ => none

def tokenEvents : ControlWorld → List ControlAction → List TokenEvent
  | _, [] => []
  | world, action :: rest =>
      (world.tokenEvent action).toList ++ tokenEvents (world.step action) rest

/-- A step that leaves the token and the applied controls alone. -/
def Untouched (world after : ControlWorld) : Prop :=
  after.service.preshutdownSkipDeadline = world.service.preshutdownSkipDeadline ∧
    after.applied = world.applied

theorem untouched_sendControl (control : EnhancedAgentControl) :
    world.Untouched (world.sendControl control) := by
  rw [sendControl]
  split
  · dsimp only
    split <;> exact ⟨rfl, rfl⟩
  · exact ⟨rfl, rfl⟩

theorem untouched_writeRequest (outcome : PipeWrite) :
    world.Untouched (world.writeRequest outcome) := by
  rw [writeRequest]
  split
  · split_ifs
    · exact ⟨rfl, rfl⟩
    · cases outcome with
      | completed => exact ⟨rfl, rfl⟩
      | failed delivered => cases delivered <;> exact ⟨rfl, rfl⟩
  · exact ⟨rfl, rfl⟩

theorem untouched_wake (timedOut : Bool) : world.Untouched (world.wake timedOut) := by
  rw [wake]
  split
  · dsimp only
    split_ifs <;> exact ⟨rfl, rfl⟩
  · exact ⟨rfl, rfl⟩

theorem untouched_agentConnect (connection : ℕ) :
    world.Untouched (world.agentConnect connection) := by
  rw [agentConnect]
  split_ifs <;> exact ⟨rfl, rfl⟩

theorem untouched_agentDisconnect : world.Untouched world.agentDisconnect := by
  rw [agentDisconnect]
  split <;> exact ⟨rfl, rfl⟩

theorem untouched_agentRead : world.Untouched world.agentRead := by
  rw [agentRead]
  split
  · exact ⟨rfl, rfl⟩
  · split
    · exact ⟨rfl, rfl⟩
    · rw [ControlFrame.decode_frame]
      exact ⟨rfl, rfl⟩

theorem untouched_serviceRead : world.Untouched world.serviceRead := by
  rw [serviceRead]
  split <;> exact ⟨rfl, rfl⟩

theorem untouched_serviceEcho (outcome : PipeWrite) :
    world.Untouched (world.serviceEcho outcome) := by
  rw [serviceEcho]
  split
  · cases outcome with
    | completed => exact ⟨rfl, rfl⟩
    | failed delivered => cases delivered <;> exact ⟨rfl, rfl⟩
  · exact ⟨rfl, rfl⟩

/-- Only a token event changes the token, and then to what the event leaves. -/
theorem token_step (action : ControlAction) :
    (world.tokenEvent action = none ∧ world.Untouched (world.step action)) ∨
      ∃ event, world.tokenEvent action = some event ∧
        (world.step action).service.preshutdownSkipDeadline = event.deadline ∧
        (world.step action).applied = world.applied ++ event.request?.toList := by
  cases action with
  | sendControl control => exact Or.inl ⟨rfl, untouched_sendControl control⟩
  | writeRequest outcome => exact Or.inl ⟨rfl, untouched_writeRequest outcome⟩
  | wake timedOut => exact Or.inl ⟨rfl, untouched_wake timedOut⟩
  | agentConnect connection => exact Or.inl ⟨rfl, untouched_agentConnect connection⟩
  | agentDisconnect => exact Or.inl ⟨rfl, untouched_agentDisconnect⟩
  | agentRead => exact Or.inl ⟨rfl, untouched_agentRead⟩
  | serviceRead => exact Or.inl ⟨rfl, untouched_serviceRead⟩
  | serviceEcho outcome => exact Or.inl ⟨rfl, untouched_serviceEcho outcome⟩
  | serviceDrop => exact Or.inl ⟨rfl, rfl, rfl⟩
  | pipeLost connection => exact Or.inl ⟨rfl, rfl, rfl⟩
  | preshutdown now =>
      refine Or.inr ⟨.preshutdown now, rfl, ?_, (List.append_nil _).symm⟩
      change (consumePreshutdownCommitHandled now _).2 = none
      cases world.service.preshutdownSkipDeadline <;> rfl
  | serviceApply now =>
      change (world.tokenEvent (.serviceApply now) = none ∧
        world.Untouched (world.serviceApply now)) ∨ _
      cases hserving : world.service.serving with
      | reading => exact Or.inl (by simp [tokenEvent, serviceApply, hserving, Untouched])
      | echoing frame => exact Or.inl (by simp [tokenEvent, serviceApply, hserving, Untouched])
      | handling frame =>
          have happlied : world.step (.serviceApply now) = { world with
              service := { world.service with
                serving := .echoing frame
                preshutdownSkipDeadline :=
                  applyPreshutdownControl now frame.request.message.control }
              applied := world.applied ++ [frame.request] } := by
            rw [step, serviceApply, hserving]
            dsimp only
            rw [frame.decode_frame]
          refine Or.inr ⟨.control frame.request now, by rw [tokenEvent, hserving], ?_, ?_⟩
          · rw [happlied, TokenEvent.deadline]
            cases frame.request.message.control <;> rfl
          · rw [happlied]
            rfl

/-- The token is what the last event of the run left, or as it was before. -/
theorem token_run (actions : List ControlAction) (world : ControlWorld) :
    (actions.foldl step world).service.preshutdownSkipDeadline =
        (world.tokenEvents actions).getLast?.elim world.service.preshutdownSkipDeadline
          TokenEvent.deadline ∧
      (actions.foldl step world).applied =
        world.applied ++ (world.tokenEvents actions).filterMap TokenEvent.request? := by
  induction actions generalizing world with
  | nil => exact ⟨rfl, (List.append_nil _).symm⟩
  | cons action rest ih =>
      obtain ⟨hdeadline, happlied⟩ := ih (world.step action)
      rw [List.foldl_cons, hdeadline, happlied, tokenEvents]
      rcases @token_step world action with
        ⟨hnone, hkept, hsame⟩ | ⟨event, hevent, hleft, hadded⟩
      · rw [hnone, hkept, hsame]
        exact ⟨rfl, rfl⟩
      · rw [hevent, hleft, hadded]
        refine ⟨?_, ?_⟩
        · rw [Option.toList_some, List.singleton_append, List.getLast?_cons]
          cases ((world.step action).tokenEvents rest).getLast? <;> rfl
        · rw [List.append_assoc, List.filterMap_append]
          cases event <;> rfl

/-- With fewer than a turn of the counter outstanding, an acknowledged control is one the
service has acted on, once and after every control sent before it; the token is what the
last control or preshutdown left, and no id is zero. -/
theorem acknowledged_control_applied {actions : List ControlAction}
    (hguarded : GuardedRun.Guarded step FewOutstanding {} actions) :
    (∀ result ∈ (actions.foldl step {}).results, result.acknowledged = true →
      (actions.foldl step {}).Made result.request ∧
      result.acknowledgement = some result.request ∧
      ∃ before now after,
        tokenEvents {} actions = before ++ .control result.request now :: after ∧
        (∀ earlier ∈ before.filterMap TokenEvent.request?,
          earlier.number < result.request.number) ∧
        ∀ later ∈ after.filterMap TokenEvent.request?, result.request.number < later.number) ∧
    (actions.foldl step {}).service.preshutdownSkipDeadline =
      (tokenEvents {} actions).getLast?.bind TokenEvent.deadline ∧
    (∀ request ∈ (tokenEvents {} actions).filterMap TokenEvent.request?,
      (actions.foldl step {}).Made request) ∧
    (∀ message ∈ (actions.foldl step {}).history, message.requestId ≠ 0) ∧
    (actions.foldl step {}).agent.nextRequestId ≠ 0 := by
  have hsound := sound_run hguarded
  obtain ⟨hdeadline, happlied⟩ := token_run actions {}
  rw [List.nil_append] at happlied
  refine ⟨?_, ?_, happlied ▸ hsound.appliedMade, ?_, ?_⟩
  · intro result hresult hacknowledged
    obtain ⟨hmade, hkept⟩ := hsound.results result hresult
    obtain ⟨hacknowledgement, hmem⟩ := hkept hacknowledged
    have hordered := hsound.appliedOrdered
    rw [happlied] at hmem hordered
    obtain ⟨event, hevent, hrequest⟩ := List.mem_filterMap.1 hmem
    obtain ⟨before, after, hsplit⟩ := List.append_of_mem hevent
    cases event with
    | preshutdown now => cases hrequest
    | control request now =>
        cases hrequest
        have hcontrols : (tokenEvents {} actions).filterMap TokenEvent.request? =
            before.filterMap TokenEvent.request? ++
              result.request :: after.filterMap TokenEvent.request? := by
          rw [hsplit, List.filterMap_append]
          rfl
        rw [hcontrols] at hordered
        have hparts := List.pairwise_append.1 hordered
        refine ⟨hmade, hacknowledgement, before, now, after, hsplit, ?_, ?_⟩
        · exact fun earlier hearlier => hparts.2.2 earlier hearlier _ List.mem_cons_self
        · exact (List.pairwise_cons.1 hparts.2.1).1
  · rw [hdeadline]
    cases (tokenEvents {} actions).getLast? <;> rfl
  · intro message hmessage
    obtain ⟨number, hnumber, hget⟩ := List.mem_iff_getElem.1 hmessage
    rw [hsound.ids number message (List.getElem?_eq_some_iff.2 ⟨hnumber, hget⟩)]
    exact requestIdOf_ne_zero number
  · rw [hsound.nextRequestId]
    exact requestIdOf_ne_zero _

/-- A control times out, the next one is written behind it, and both echoes come back:
the commit that is required again is not skipped. -/
theorem acknowledged_control_applied_after_timeout :
    let actions : List ControlAction := [.agentConnect 0,
      .sendControl .preshutdownCommitHandled, .writeRequest .completed, .wake true,
      .sendControl .preshutdownCommitRequired, .writeRequest .completed,
      .serviceRead, .serviceApply 0, .serviceEcho .completed,
      .serviceRead, .serviceApply 0, .serviceEcho .completed,
      .agentRead, .wake false, .agentRead, .wake false]
    (actions.foldl step {}).results.map ControlResult.acknowledged = [false, true] ∧
      (∀ result ∈ (actions.foldl step {}).results, result.acknowledged = true →
        ∃ now, .control result.request now ∈ tokenEvents {} actions) ∧
      (actions.foldl step {}).service.preshutdownSkipDeadline = none := by
  intro actions
  have hguarded : GuardedRun.Guarded step FewOutstanding {} actions := by decide +kernel
  obtain ⟨hresults, hdeadline, -⟩ := acknowledged_control_applied hguarded
  refine ⟨by decide +kernel, fun result hresult hacknowledged => ?_, ?_⟩
  · obtain ⟨-, -, before, now, after, hsplit, -⟩ := hresults result hresult hacknowledged
    refine ⟨now, ?_⟩
    rw [hsplit]
    exact List.mem_append_right _ List.mem_cons_self
  · rw [hdeadline]
    decide +kernel

end ControlWorld

end UwfManager
