import Montage.Json.Reader
import Montage.Plan.Compile
import Montage.Schema.Basic
import Montage.Text.Case

/-! # Settings of the service

A service is set up by named values; each has a standard value that holds unless another one
is given (`Settings.read`).  In an environment every value is a text and the case of a name
does not matter (`environmentFields`); the scalar readers make numbers of texts.

Two settings are lists in disguise: the compiler's defaults are collected from several fields
(`Settings.defaults`), and the origins that browsers may call from are written as one text
(`Settings.corsOrigins`).
-/
namespace Montage

open Schema Text

structure Settings where
  appName : String
  appVersion : String
  gitHash : String
  logLevel : String
  /-- Where the service listens. -/
  tcpPort : Int
  corsOriginsRaw : String
  /-- A pattern of further origins. -/
  corsOriginRegex : Option String
  workRoot : String
  uploadDirectory : String
  maxUploadMegabytes : Int
  /-- Longest silence of a server, in seconds. -/
  fetchTimeout : Number
  fetchConnectTimeout : Number
  fetchChunkSize : Int
  engineProgram : String
  probeProgram : String
  preset : String
  engineThreads : Int
  engineMuxingQueue : Int
  diagnosticLines : Int
  overlayFontFile : Option String
  width : Int
  height : Int
  fps : Int
  videoBitrate : String
  audioBitrate : String
  sampleRate : Int
  fallbackDuration : Number
  /-- A smaller output counts as failed. -/
  minOutputBytes : Int
  maxConcurrentJobs : Int
  /-- Seconds for which a job is kept. -/
  jobLifetime : Int
  /-- Seconds between two sweeps. -/
  sweepInterval : Int
  /-- Seconds for which running jobs are waited for at the end. -/
  drainTimeout : Number
  deriving DecidableEq, Repr

/-- The defaults as fields, in the order of declaration. -/
def Defaults.fields (d : Defaults) : List (String × Json) :=
  [("width", .int d.width), ("height", .int d.height), ("fps", .int d.fps),
    ("video_bitrate", .str d.videoBitrate), ("audio_bitrate", .str d.audioBitrate),
    ("sample_rate", .int d.sampleRate), ("fallback_clip_duration_s", .float d.fallbackDuration),
    ("video_codec", .str d.videoCodec), ("audio_codec", .str d.audioCodec),
    ("preset", .str d.preset)]

namespace Settings

def standard : Settings :=
  { appName := "Timeline Renderer"
    appVersion := "0.1.0"
    gitHash := "unknown"
    logLevel := "INFO"
    tcpPort := 10000
    corsOriginsRaw := "https://msimbi.com,https://www.msimbi.com,https://lovable.dev"
    corsOriginRegex := some "https://.*\\.lovable(app|project)?\\.com"
    workRoot := "/tmp/timeline-renderer/jobs"
    uploadDirectory := "/tmp/timeline-renderer/uploads"
    maxUploadMegabytes := 500
    fetchTimeout := .finite 300
    fetchConnectTimeout := .finite 30
    fetchChunkSize := 1048576
    engineProgram := "ffmpeg"
    probeProgram := "ffprobe"
    preset := "fast"
    engineThreads := 2
    engineMuxingQueue := 1024
    diagnosticLines := 200
    overlayFontFile := none
    width := 1280
    height := 720
    fps := 30
    videoBitrate := "4M"
    audioBitrate := "160k"
    sampleRate := 48000
    fallbackDuration := .finite 10
    minOutputBytes := 100000
    maxConcurrentJobs := 2
    jobLifetime := 3600
    sweepInterval := 300
    drainTimeout := .finite 30 }

/-- Settings with the given fields; the first fault is that of the first field in the order of
declaration. -/
def read (fields : List (JsonText × Json)) : Except Fault Settings := do
  let d := standard
  let field {α : Type} (name : String) (absent : α) (reader : Reader α) :=
    optional fields (.plain name) absent reader
  let appName ← field "app_name" d.appName text
  let appVersion ← field "app_version" d.appVersion text
  let gitHash ← field "git_hash" d.gitHash text
  let logLevel ← field "log_level" d.logLevel text
  let tcpPort ← field "port" d.tcpPort integer
  let corsOriginsRaw ← field "cors_origins_raw" d.corsOriginsRaw text
  let corsOriginRegex ← field "cors_origin_regex" d.corsOriginRegex (nullable text)
  let workRoot ← field "work_root" d.workRoot text
  let uploadDirectory ← field "upload_dir" d.uploadDirectory text
  let maxUploadMegabytes ← field "max_upload_size_mb" d.maxUploadMegabytes integer
  let fetchTimeout ← field "fetch_timeout_s" d.fetchTimeout decimal
  let fetchConnectTimeout ← field "fetch_connect_timeout_s" d.fetchConnectTimeout decimal
  let fetchChunkSize ← field "fetch_chunk_size" d.fetchChunkSize integer
  let engineProgram ← field "ffmpeg_path" d.engineProgram text
  let probeProgram ← field "ffprobe_path" d.probeProgram text
  let preset ← field "ffmpeg_preset" d.preset text
  let engineThreads ← field "ffmpeg_threads" d.engineThreads integer
  let engineMuxingQueue ← field "ffmpeg_max_muxing_queue" d.engineMuxingQueue integer
  let diagnosticLines ← field "engine_diagnostic_lines" d.diagnosticLines integer
  let overlayFontFile ← field "overlay_font_file" d.overlayFontFile (nullable text)
  let width ← field "render_output_width" d.width integer
  let height ← field "render_output_height" d.height integer
  let fps ← field "render_fps" d.fps integer
  let videoBitrate ← field "render_video_bitrate" d.videoBitrate text
  let audioBitrate ← field "render_audio_bitrate" d.audioBitrate text
  let sampleRate ← field "render_audio_sample_rate" d.sampleRate integer
  let fallbackDuration ← field "render_fallback_clip_duration_s" d.fallbackDuration decimal
  let minOutputBytes ← field "render_min_output_bytes" d.minOutputBytes integer
  let maxConcurrentJobs ← field "max_concurrent_jobs" d.maxConcurrentJobs integer
  let jobLifetime ← field "job_ttl_seconds" d.jobLifetime integer
  let sweepInterval ← field "retention_sweep_interval_s" d.sweepInterval integer
  let drainTimeout ← field "shutdown_drain_timeout_s" d.drainTimeout decimal
  .ok
    { appName, appVersion, gitHash, logLevel, tcpPort, corsOriginsRaw, corsOriginRegex, workRoot
      uploadDirectory, maxUploadMegabytes, fetchTimeout, fetchConnectTimeout, fetchChunkSize
      engineProgram, probeProgram, preset, engineThreads, engineMuxingQueue, diagnosticLines
      overlayFontFile, width, height, fps, videoBitrate, audioBitrate, sampleRate
      fallbackDuration, minOutputBytes, maxConcurrentJobs, jobLifetime, sweepInterval
      drainTimeout }

/-- The settings as fields, in the order of declaration. -/
def fields (s : Settings) : List (String × Json) :=
  let text? (t : Option String) : Json := (t.map Json.str).getD .null
  [("app_name", .str s.appName), ("app_version", .str s.appVersion), ("git_hash", .str s.gitHash),
    ("log_level", .str s.logLevel), ("port", .int s.tcpPort),
    ("cors_origins_raw", .str s.corsOriginsRaw), ("cors_origin_regex", text? s.corsOriginRegex),
    ("work_root", .str s.workRoot), ("upload_dir", .str s.uploadDirectory),
    ("max_upload_size_mb", .int s.maxUploadMegabytes), ("fetch_timeout_s", .float s.fetchTimeout),
    ("fetch_connect_timeout_s", .float s.fetchConnectTimeout),
    ("fetch_chunk_size", .int s.fetchChunkSize), ("ffmpeg_path", .str s.engineProgram),
    ("ffprobe_path", .str s.probeProgram), ("ffmpeg_preset", .str s.preset),
    ("ffmpeg_threads", .int s.engineThreads),
    ("ffmpeg_max_muxing_queue", .int s.engineMuxingQueue),
    ("engine_diagnostic_lines", .int s.diagnosticLines),
    ("overlay_font_file", text? s.overlayFontFile), ("render_output_width", .int s.width),
    ("render_output_height", .int s.height), ("render_fps", .int s.fps),
    ("render_video_bitrate", .str s.videoBitrate), ("render_audio_bitrate", .str s.audioBitrate),
    ("render_audio_sample_rate", .int s.sampleRate),
    ("render_fallback_clip_duration_s", .float s.fallbackDuration),
    ("render_min_output_bytes", .int s.minOutputBytes),
    ("max_concurrent_jobs", .int s.maxConcurrentJobs), ("job_ttl_seconds", .int s.jobLifetime),
    ("retention_sweep_interval_s", .int s.sweepInterval),
    ("shutdown_drain_timeout_s", .float s.drainTimeout)]

/-- The variables of an environment as fields; of two names that differ in case only, the later
one counts. -/
def environmentFields (environment : List (String × String)) : List (JsonText × Json) :=
  environment.foldl
    (fun fields v =>
      Json.putField (String.ofList (lowerCase v.1.toList)) (.str v.2) fields) []

/-- What the compiler fills in. -/
def defaults (s : Settings) : Defaults :=
  { Defaults.standard with
    width := s.width
    height := s.height
    fps := s.fps
    videoBitrate := s.videoBitrate
    audioBitrate := s.audioBitrate
    sampleRate := s.sampleRate
    fallbackDuration := s.fallbackDuration
    preset := s.preset }

/-- Options of the engine: the number of threads and the length of its queue. -/
def engineOptions (s : Settings) : List String :=
  ["-threads", toString s.engineThreads, "-max_muxing_queue_size", toString s.engineMuxingQueue]

/-- Parts of a text between separators, without blanks around them; empty parts do not count. -/
def partsBetween (separator : Char) (s : String) : List String :=
  ((s.toList.splitOn separator).map fun part => trimBlanks (String.ofList part)).filter
    fun part => !part.isEmpty

/-- The origins that may call: a JSON list, or parts between bars, or parts between commas. -/
def corsOrigins (s : Settings) : Except Json.TextFault (List Json) :=
  let raw := s.corsOriginsRaw
  let parts := partsBetween (if raw.toList.contains '|' then '|' else ',') raw
  if raw.startsWith "[" then
    match Json.read raw with
    | .ok (.arr origins) => .ok origins
    | .ok _ => .ok (parts.map .str)
    | .error f => if f.cause.isLimit then .error f else .ok (parts.map .str)
  else .ok (parts.map .str)

end Settings
end Montage
