import LinuxBuild.RequestItems

/-!
# The URL of an AMAP request

The base URL and the path are printed one behind the other. The size that `snprintf` is
given counts their characters but not the terminator, for which it takes one of them away.
-/
namespace RequestUrl
open CString LbsTypes AmapRequest AmapSignature RequestItems

/-- `snprintf(dst, size, "%s", text)` into a buffer that is large enough; the last of the
`size` bytes is the terminator. -/
def snprintf (size : Nat) (text : CStr) : CStr := text.take (size - 1)

/-- `CM_LBS_AMAPV1_URL` and `CM_LBS_AMAPV2_URL` -/
def baseUrl (platform : LocationPlatform) : CStr :=
  if platform = .amap10 then cstr "http://apilocate.amap.com" else cstr "http://restapi.amap.com"

/-- What can fail before the URL is set: the buffer of the path, the allocations for the
path and the handles of the HTTP library. -/
structure UrlEnv where
  httpPath : Bool
  path : PathAlloc
  handles : Bool

/-- The string that `__cm_amap_http_requst` hands to `CURLOPT_URL`, or the error with which
it ends before that. -/
def curlUrl (md5 : CStr → Digest) (env : UrlEnv) (client : AmapClient) :
    Option (Except LbsState CStr) :=
  if env.httpPath then do
    match ← createRequstHttpPath md5 env.path client.ueinfo client.auth with
    | .error _ => some (.error .err)
    | .ok path =>
      let httpUrl := baseUrl client.auth.platform
      if env.handles then
        some (.ok (snprintf (httpUrl.length + path.length) (httpUrl ++ path)))
      else some (.error .err)
  else some (.error .memroyErr)

theorem snprintf_append {base path : CStr} (h : path ≠ []) :
    snprintf (base.length + path.length) (base ++ path) = base ++ path.dropLast := by
  rw [snprintf, ← List.length_append, ← List.dropLast_eq_take, List.dropLast_append_of_ne_nil h]

section
variable {md5 : CStr → Digest} {alloc : PathAlloc} {ue : AmapUeInfo} {auth : AmapAuthentication}
variable {path : CStr}

theorem pathHead_ne_nil (platform : LocationPlatform) : pathHead platform ≠ [] := by
  simp only [pathHead]
  split_ifs
  · decide
  · decide

/-- A path starts with the prefix of its version. -/
theorem path_starts (h : createRequstHttpPath md5 alloc ue auth = some (.ok path)) :
    pathHead auth.platform <+: path := by
  have hsigned : signedPath md5 alloc ue auth = some path := by
    simp only [createRequstHttpPath] at h
    split at h
    · simpa using h
    · simpa using h
    · cases h
  simp only [signedPath, Option.bind_eq_bind, Option.bind_eq_some_iff, inBuffer_eq_some_iff]
    at hsigned
  obtain ⟨_, -, apikey, -, nearbts, -, _, ⟨-, rfl⟩, hsigned⟩ := hsigned
  split_ifs at hsigned
  · rw [← Option.some.inj hsigned]
    exact List.prefix_append _ _
  · simp only [Option.bind_eq_some_iff, inBuffer_eq_some_iff] at hsigned
    obtain ⟨sig, -, -, rfl⟩ := hsigned
    rw [List.append_assoc]
    exact List.prefix_append _ _

theorem path_ne_nil (h : createRequstHttpPath md5 alloc ue auth = some (.ok path)) : path ≠ [] := by
  rintro rfl
  exact pathHead_ne_nil auth.platform (List.prefix_nil.mp (path_starts h))

end

theorem curlUrl_eq {md5 : CStr → Digest} {env : UrlEnv} {client : AmapClient} {path : CStr}
    (h : createRequstHttpPath md5 env.path client.ueinfo client.auth = some (.ok path))
    (hpath : env.httpPath = true) (hhandles : env.handles = true) :
    curlUrl md5 env client = some (.ok (baseUrl client.auth.platform ++ path.dropLast)) := by
  simp only [curlUrl, hpath, hhandles, if_true, h, Option.bind_eq_bind, Option.bind_some,
    snprintf_append (path_ne_nil h)]

/-- A session whose URL is set has memory for its path and its handles. -/
theorem ready_of_curlUrl {md5 : CStr → Digest} {env : UrlEnv} {client : AmapClient}
    {path url : CStr} (h : createRequstHttpPath md5 env.path client.ueinfo client.auth =
      some (.ok path)) (hurl : curlUrl md5 env client = some (.ok url)) :
    env.httpPath = true ∧ env.handles = true := by
  simp only [curlUrl, h, Option.bind_eq_bind, Option.bind_some] at hurl
  split_ifs at hurl with hpath hhandles
  · exact ⟨hpath, hhandles⟩
  · cases hurl
  · cases hurl

/-- The URL of a session lacks the last character of its path, and so is never the base URL
followed by the path. -/
theorem curlUrl_lacks_last (md5 : CStr → Digest) (env : UrlEnv) (client : AmapClient)
    (path : CStr)
    (h : createRequstHttpPath md5 env.path client.ueinfo client.auth = some (.ok path)) :
    (env.httpPath = true → env.handles = true →
      curlUrl md5 env client = some (.ok (baseUrl client.auth.platform ++ path.dropLast))) ∧
    ∀ url, curlUrl md5 env client = some (.ok url) →
      url ≠ baseUrl client.auth.platform ++ path := by
  refine ⟨curlUrl_eq h, ?_⟩
  rintro url hurl rfl
  obtain ⟨hpath, hhandles⟩ := ready_of_curlUrl h hurl
  rw [curlUrl_eq h hpath hhandles] at hurl
  have heq := List.append_cancel_left (Except.ok.inj (Option.some.inj hurl))
  have hlen := congrArg List.length heq
  have hpos := List.length_pos_iff.mpr (path_ne_nil h)
  rw [List.length_dropLast] at hlen
  omega

/-- With signing enabled it is the last digit of the signature that is lost. -/
theorem curlUrl_signed {md5 : CStr → Digest} {env : UrlEnv} {client : AmapClient}
    {apikey signKey : CStr} (h : Renderable client.ueinfo client.auth apikey signKey)
    (hsignature : env.path.signature = true) (hpath : env.httpPath = true)
    (hhandles : env.handles = true) :
    let params := sentParams env.path.nearbts client.ueinfo client.auth apikey
    curlUrl md5 env client = some (.ok (baseUrl client.auth.platform ++
      (pathHead client.auth.platform ++ params ++ cstr "&sig=" ++
        (lowerHexMd5 md5 (params ++ signKey)).dropLast))) := by
  intro params
  have hcreate := @createRequstHttpPath_eq md5 env.path client.ueinfo client.auth apikey signKey h
  simp only [hsignature, if_true] at hcreate
  have hdigits : lowerHexMd5 md5 (params ++ signKey) ≠ [] := by
    rw [← List.length_pos_iff, lowerHexMd5_length]
    decide
  rw [curlUrl_eq hcreate hpath hhandles, ← List.append_assoc,
    List.dropLast_append_of_ne_nil hdigits]

/-- A session without signing that knows nothing of its cells. -/
def plainClient : AmapClient := ⟨ueZero, ⟨.amap10, 0, none, some (cstr "key"), 10, 0⟩⟩

theorem curlUrl_lacks_last_plain :
    ∃ path, curlUrl (fun _ => Field.zero 16) ⟨true, ⟨true, true⟩, true⟩ plainClient =
        some (.ok (baseUrl .amap10 ++ path.dropLast)) ∧
      ∀ url, curlUrl (fun _ => Field.zero 16) ⟨true, ⟨true, true⟩, true⟩ plainClient =
        some (.ok url) → url ≠ baseUrl .amap10 ++ path := by
  have h := curlUrl_lacks_last (fun _ => Field.zero 16) ⟨true, ⟨true, true⟩, true⟩ plainClient
    (cstr "/position?accesstype=0&bts=0,0,,,0&cdma=0&imei=&key=key&output=json") (by decide)
  exact ⟨_, h.1 rfl rfl, h.2⟩

/-- The request asks for a position in the format `jso`. -/
theorem curlUrl_plain :
    ∃ path url, createRequstHttpPath (fun _ => Field.zero 16) ⟨true, true⟩ plainClient.ueinfo
        plainClient.auth = some (.ok path) ∧
      curlUrl (fun _ => Field.zero 16) ⟨true, ⟨true, true⟩, true⟩ plainClient = some (.ok url) ∧
      url ≠ baseUrl .amap10 ++ path ∧ url = cstr ("http://apilocate.amap.com/position?" ++
        "accesstype=0&bts=0,0,,,0&cdma=0&imei=&key=key&output=jso") := by
  refine ⟨cstr "/position?accesstype=0&bts=0,0,,,0&cdma=0&imei=&key=key&output=json", _, ?_, rfl,
    ?_, ?_⟩ <;> decide

end RequestUrl
