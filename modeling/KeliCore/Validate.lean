/-
`CoreConfig::validate` with every check it makes and every message it gives.
The checks of one function are in source order, since the first one that fails
decides the message.
-/
import KeliCore.Config

namespace KeliCore

open Text List InboundConfig

structure ValidationError where
  message : String
deriving DecidableEq

/-- The result of a check that yields nothing but its success. -/
abbrev Check := Except ValidationError Unit

/-- `if bad { return Err(ValidationError::new(message)) }` -/
def rejectIf (bad : Bool) (message : String) : Check :=
  if bad then .error ⟨message⟩ else .ok ()

/-- `value.as_deref().map(str::trim).unwrap_or_default()` -/
def trimmed (value : Option String) : String := (value.map trim).getD ""

/-- A trimmed value that falls back when it is missing or blank. -/
def trimmedOr (value : Option String) (fallback : String) : String :=
  ((value.map trim).filter fun text => !text.isEmpty).getD fallback

def isMissing (value : Option String) : Bool := (value.map isBlank).getD true

def isGiven (value : Option String) : Bool := value.any fun text => !isBlank text

def isSupportedIpRouteRule (rule : String) : Bool :=
  let rule := trimMatches (fun c => c == '[' || c == ']') (trim rule)
  match stripPrefix rule "geoip:" with
  | some rule => !isBlank rule
  | none =>
    if (IpAddr.parse rule).isSome then true
    else
      match splitOnce '/' rule with
      | none => false
      | some (ip, width) =>
        match IpAddr.parse (trim ip), parseU8 (trim width) with
        | some (.v4 _), some width => width ≤ 32
        | some (.v6 _), some width => width ≤ 128
        | _, _ => false

def isSupportedSourceIpRouteRule (rule : String) : Bool :=
  let rule := trim rule
  isSupportedIpRouteRule ((stripPrefix rule "ip:").getD rule)

def isSupportedPortItem (item : String) : Bool :=
  let item := trim item
  if item.isEmpty then false
  else
    match splitOnce '-' item with
    | some (first, last) =>
      match parseU16 (trim first), parseU16 (trim last) with
      | some first, some last => first ≤ last
      | _, _ => false
    | none => (parseU16 item).isSome

def isSupportedPortRouteRule (rule : String) : Bool :=
  (split ',' rule).all isSupportedPortItem

def validateRouteTarget (env : Externals) (action : RouteAction) (target : String) : Check :=
  let target := trim target
  let unsupported := s!"route target {target} is not supported in keli-core-rs yet"
  let normalized := toAsciiLowercase target
  if target.isEmpty then
    .error ⟨"route target must not be empty"⟩
  else if let some rule := stripPrefix normalized "ip:" then
    rejectIf (!isSupportedIpRouteRule rule) unsupported
  else if let some rule := stripPrefix normalized "port:" then
    rejectIf (!isSupportedPortRouteRule rule) unsupported
  else if let some rule := stripPrefix normalized "network:" then
    rejectIf (!(["tcp", "udp"].contains (trim rule))) unsupported
  else if let some rule := stripPrefix normalized "domain:" then
    rejectIf (trimStartMatches (· == '.') (trim rule)).isEmpty unsupported
  else if let some rule := stripPrefix normalized "full:" then
    rejectIf (trimMatches (fun c => c == '[' || c == ']') (trim rule)).isEmpty unsupported
  else if let some rule := stripPrefix normalized "keyword:" then
    rejectIf (isBlank rule) unsupported
  else if let some rule := stripPrefix normalized "geoip:" then
    rejectIf (isBlank rule) unsupported
  else if let some rule := stripPrefix normalized "geosite:" then
    rejectIf (isBlank rule) unsupported
  else if let some rule := stripPrefix normalized "regexp:" then
    rejectIf (!env.regexCompiles rule) s!"route target {target} has invalid regexp"
  else if let some rule := stripPrefix normalized "protocol:" then
    rejectIf ((split ',' rule).all isBlank) unsupported
  else if let some rule := stripPrefix normalized "source_ip:" then
    rejectIf (action != .block || !isSupportedSourceIpRouteRule rule) unsupported
  else
    -- Unreachable after the cases above, as in the source.
    rejectIf (startsWith normalized "geoip:" ||
      startsWith normalized "geosite:" || startsWith normalized "regexp:" ||
      startsWith normalized "protocol:" || startsWith normalized "source_ip:") unsupported

def validateRouteTargets (env : Externals) (route : RouteRule) : Check :=
  route.targets.forM (validateRouteTarget env route.action)

def outboundTransportNetwork (outbound : OutboundConfig) : String :=
  trimmedOr (outbound.transport.map fun transport => transport.network) "tcp"

def parseVlessOutboundUuid (env : Externals) (value : String) : Option (List UInt8) :=
  let value := (value.toList.filter (· != '-')).flatMap env.charToLowercase
  let encoded := bytes (String.ofList value)
  if encoded.length ≠ 32 then none else hexPairs encoded

/-- `normalize_method`, then the ciphers `ShadowsocksMethod::parse` knows. -/
def isSupportedShadowsocksCipher (method : String) : Bool :=
  ["aes-128-gcm", "aes-256-gcm", "chacha20-ietf-poly1305"].contains
    (replaceChars (· == '_') '-' (toAsciiLowercase (trim method)))

def validateOutboundHeader (env : Externals) (outbound : OutboundConfig)
    (header : String × String) : Check := do
  let (name, value) := header
  rejectIf (isBlank name) s!"outbound {outbound.tag} h2 header name must not be empty"
  rejectIf (!env.headerNameValid name) s!"outbound {outbound.tag} h2 header {name} is invalid"
  rejectIf (!env.headerValueValid value)
    s!"outbound {outbound.tag} h2 header {name} value is invalid"

/-- The checks of a `quic` transport's own settings. -/
def validateOutboundQuic (outbound : OutboundConfig)
    (security key headerType : String) : Check := do
  let lowered := toAsciiLowercase security
  rejectIf (!(["none", "aes-128-gcm", "aes128-gcm", "chacha20-poly1305",
      "chacha20-ietf-poly1305"].contains lowered))
    s!"outbound {outbound.tag} quic security {security} is not supported"
  rejectIf (lowered == "none" && !key.isEmpty)
    s!"outbound {outbound.tag} quic key is supported only with encrypted quic security"
  rejectIf (!eqIgnoreAsciiCase headerType "none")
    s!"outbound {outbound.tag} quic header {headerType} is not supported yet"

def validateOutboundTransport (env : Externals) (outbound : OutboundConfig)
    (protocol : String) : Check :=
  match outbound.transport with
  | none => .ok ()
  | some transport => do
      let network := toAsciiLowercase (outboundTransportNetwork outbound)
      rejectIf (!(["vless", "trojan", "vmess"].contains protocol))
        s!"outbound {outbound.tag} transport is supported only for vless, trojan, and vmess today"
      rejectIf (!(["tcp", "ws", "httpupgrade", "grpc", "h2", "http", "quic"].contains network))
        s!"outbound {outbound.tag} {outbound.protocol} transport {network} is not supported yet"
      let path := trimmed transport.path
      let host := trimmed transport.host
      let serviceName := trimmed transport.serviceName
      let method := trimmed transport.method
      let quicSecurity := trimmedOr transport.quicSecurity "none"
      let quicKey := trimmed transport.quicKey
      let quicHeaderType := trimmedOr transport.quicHeaderType "none"
      rejectIf (!(["ws", "httpupgrade", "h2", "http"].contains network) &&
          (!path.isEmpty || !host.isEmpty))
        s!"outbound {outbound.tag} transport path/host is supported only for ws/httpupgrade/h2 today"
      rejectIf (network != "grpc" && !serviceName.isEmpty)
        s!"outbound {outbound.tag} grpc service_name is supported only for grpc transport"
      rejectIf (!(["h2", "http"].contains network) && !method.isEmpty)
        s!"outbound {outbound.tag} h2 method is supported only for h2 transport"
      rejectIf (!(["h2", "http"].contains network) && !transport.headers.isEmpty)
        s!"outbound {outbound.tag} h2 headers are supported only for h2 transport"
      rejectIf (network != "quic" && (!eqIgnoreAsciiCase quicSecurity "none" || !quicKey.isEmpty ||
            !eqIgnoreAsciiCase quicHeaderType "none"))
        s!"outbound {outbound.tag} quic settings are supported only for quic transport"
      if network == "quic" then
        validateOutboundQuic outbound quicSecurity quicKey quicHeaderType
      transport.headers.forM (validateOutboundHeader env outbound)

def validateShadowsocksOutbound (outbound : OutboundConfig) : Check := do
  let method := trimmed outbound.method
  rejectIf method.isEmpty s!"outbound {outbound.tag} method is required for shadowsocks"
  rejectIf (!isSupportedShadowsocksCipher method)
    s!"outbound {outbound.tag} shadowsocks cipher {method} is not supported"
  rejectIf (isMissing outbound.password)
    s!"outbound {outbound.tag} password is required for shadowsocks"

def validateVlessOutbound (env : Externals) (outbound : OutboundConfig) :
    Check := do
  rejectIf (parseVlessOutboundUuid env (trimmed outbound.username)).isNone
    s!"outbound {outbound.tag} username must be a vless uuid"
  let flow := trimmed outbound.method
  if !flow.isEmpty then
    rejectIf (flow != "xtls-rprx-vision")
      s!"outbound {outbound.tag} vless flow {flow} is not supported"
    rejectIf (outboundTransportNetwork outbound != "tcp" || outbound.tls.isNone)
      s!"outbound {outbound.tag} vless flow is supported only for tcp tls outbound"

def validateVmessOutbound (env : Externals) (outbound : OutboundConfig) :
    Check := do
  rejectIf (parseVlessOutboundUuid env (trimmed outbound.username)).isNone
    s!"outbound {outbound.tag} username must be a vmess uuid"
  let security := toAsciiLowercase (trimmedOr outbound.method "auto")
  rejectIf (!(["auto", "aes-128-gcm", "aes128-gcm", "chacha20-poly1305",
      "chacha20-ietf-poly1305", "none"].contains security))
    s!"outbound {outbound.tag} vmess security {security} is not supported"

def validateOutboundEndpoint (env : Externals) (outbound : OutboundConfig) :
    Check := do
  let protocol := toAsciiLowercase (trim outbound.protocol)
  validateOutboundTransport env outbound protocol
  rejectIf (outbound.address.any isBlank) s!"outbound {outbound.tag} address must not be empty"
  if ["socks", "socks5", "http", "shadowsocks", "trojan", "vless", "vmess"].contains protocol then
    rejectIf (isMissing outbound.address)
      s!"outbound {outbound.tag} address is required for {outbound.protocol}"
    rejectIf outbound.port.isNone
      s!"outbound {outbound.tag} port is required for {outbound.protocol}"
  if protocol == "shadowsocks" then
    validateShadowsocksOutbound outbound
  rejectIf (protocol == "trojan" && isMissing outbound.password)
    s!"outbound {outbound.tag} password is required for trojan"
  if protocol == "vless" then
    validateVlessOutbound env outbound
  if protocol == "vmess" then
    validateVmessOutbound env outbound
  rejectIf (outbound.tls.isSome && !(["trojan", "vless", "vmess"].contains protocol))
    s!"outbound {outbound.tag} tls is supported only for trojan, vless, and vmess today"

def validateOutbound (env : Externals) (outbound : OutboundConfig) : Check := do
  rejectIf (isBlank outbound.tag) "outbound tag is required"
  rejectIf (!(["freedom", "socks", "socks5", "http", "shadowsocks", "trojan",
      "vless", "vmess"].contains (toAsciiLowercase (trim outbound.protocol))))
    s!"outbound {outbound.tag} protocol {outbound.protocol} is not implemented in keli-core-rs yet"
  validateOutboundEndpoint env outbound

def protocolLabel : Protocol → String
  | .shadowsocks => "shadowsocks"
  | .vmess => "vmess"
  | .vless => "vless"
  | .trojan => "trojan"
  | .hysteria2 => "hysteria2"
  | .tuic => "tuic"
  | .anyTls => "anytls"
  | .socks => "socks"
  | .http => "http"
  | .naive => "naive"
  | .mieru => "mieru"

/-- `decode_hex`; the process aborts where a pair starts inside a character,
which is an error here. -/
def decodeHex (value : String) : Except String (List UInt8) :=
  let encoded := bytes (trim value)
  if encoded.length % 2 ≠ 0 then
    .error "hex string must have an even length"
  else
    match hexPairs encoded with
    | some decoded => .ok decoded
    | none => .error "hex string contains invalid characters"

def decodeRealityPrivateKey (env : Externals) (value : String) : Except String (List UInt8) :=
  let value := trim value
  let sized (key : List UInt8) : Except String (List UInt8) :=
    if key.length = 32 then .ok key else .error "reality private key is invalid"
  if (bytes value).length == 64 && value.toList.all fun c => (digit? 16 c).isSome then
    match decodeHex value with
    | .ok key => sized key
    | .error message => .error s!"invalid reality client hello: {message}"
  else
    match (env.base64UrlSafeNoPad value).or (env.base64Standard value) with
    | some key => sized key
    | none => .error "reality private key is invalid"

/-- `decode_short_id`, with the error already formatted; the eight bytes are
padded with zeros. -/
def decodeShortId (value : String) : Except String (List UInt8) :=
  let value := trim value
  let length := (bytes value).length
  if 16 < length ∨ length % 2 ≠ 0 then
    .error "invalid reality client hello: short_id must be 0 to 8 bytes of hex"
  else
    match decodeHex value with
    | .ok id => .ok (id ++ List.replicate (8 - id.length) 0)
    | .error message => .error s!"invalid reality client hello: {message}"

def destHasExplicitPort (dest : String) : Bool :=
  let dest := trim dest
  match stripPrefix dest "[" with
  | some rest =>
    -- The text after the first `]:`.
    match splitAfterBracket rest.toList with
    | some port => (parseU16 (String.ofList port)).isSome
    | none => false
  | none =>
    if 1 < dest.toList.count ':' then false
    else
      match rsplitOnce ':' dest with
      | some (_, port) => (parseU16 port).isSome
      | none => false
where
  splitAfterBracket : List Char → Option (List Char)
    | ']' :: ':' :: rest => some rest
    | _ :: rest => splitAfterBracket rest
    | [] => none

def validateRealityTlsConfig (env : Externals) (protocol tag network : String)
    (tls : TlsConfig) (reality : RealityConfig) : Check := do
  rejectIf (protocol != "vless") s!"{tag} {protocol} reality currently supports only vless"
  rejectIf (network != "tcp") s!"{tag} vless reality currently requires tcp transport"
  rejectIf (isBlank tls.serverName) s!"{tag} vless reality requires server_name"
  rejectIf (isBlank reality.dest) s!"{tag} vless reality requires dest"
  rejectIf (!destHasExplicitPort reality.dest && reality.serverPort.getD 0 == 0)
    s!"{tag} vless reality requires server_port when dest has no port"
  match decodeRealityPrivateKey env reality.privateKey with
  | .ok _ => pure ()
  | .error error => throw ⟨s!"{tag} vless reality private_key is invalid: {error}"⟩
  match decodeShortId reality.shortId with
  | .ok _ => pure ()
  | .error error => throw ⟨s!"{tag} vless reality short_id is invalid: {error}"⟩
  rejectIf (2 < reality.xver) s!"{tag} vless reality xver must be 0, 1 or 2"
  rejectIf (isGiven reality.mldsa65Seed)
    s!"{tag} vless reality mldsa65_seed is not implemented in keli-core-rs yet"

def validateTlsConfig (env : Externals) (protocol tag network : String) : Option TlsConfig → Check
  | none => .ok ()
  | some tls => do
      rejectIf (!(["tcp", "ws", "httpupgrade", "grpc"].contains network))
        s!"{tag} {protocol} tls currently supports only tcp/ws/httpupgrade/grpc transport"
      match tls.reality with
      | some reality => validateRealityTlsConfig env protocol tag network tls reality
      | none =>
        rejectIf (isBlank (tls.certFile.getD "") || isBlank (tls.keyFile.getD ""))
          s!"{tag} {protocol} tls requires cert_file and key_file"
        rejectIf (tls.rejectUnknownSni && isBlank tls.serverName)
          s!"{tag} {protocol} reject_unknown_sni requires server_name"

def validateQuicTlsConfig (protocol tag : String) : Option TlsConfig → Check
  | none => .error ⟨s!"{tag} {protocol} requires tls certificate files"⟩
  | some tls => do
      rejectIf tls.reality.isSome
        s!"{tag} {protocol} reality is not implemented in keli-core-rs yet"
      rejectIf (isBlank (tls.certFile.getD "") || isBlank (tls.keyFile.getD ""))
        s!"{tag} {protocol} requires cert_file and key_file"
      rejectIf (tls.rejectUnknownSni && isBlank tls.serverName)
        s!"{tag} {protocol} reject_unknown_sni requires server_name"

def isSupportedQuicCongestionControl (value : String) : Bool :=
  ["", "cubic", "bbr", "new_reno", "newreno", "reno"].contains
    (replaceChars (fun c => c == '-' || c == ' ') '_' (toAsciiLowercase (trim value)))

/-- The congestion check `tuic` and `hysteria2` share. -/
def validateCongestionControl (protocol tag : String) (transport : TransportConfig) : Check :=
  let congestion := trim transport.congestionControl
  rejectIf (!congestion.isEmpty && !isSupportedQuicCongestionControl congestion)
    s!"{tag} {protocol} congestion_control {congestion} is not supported"

def validateTuicTransportOptions (tag : String) (transport : TransportConfig) :
    Check := do
  validateCongestionControl "tuic" tag transport
  rejectIf transport.zeroRttHandshake s!"{tag} tuic zero_rtt_handshake is not supported yet"

def validateHysteria2TransportOptions (tag : String) (transport : TransportConfig) : Check := do
  validateCongestionControl "hysteria2" tag transport
  let obfs := trim (transport.obfs.getD "")
  let password := trim (transport.obfsPassword.getD "")
  if obfs.isEmpty && password.isEmpty then
    pure ()
  else
    rejectIf (!eqIgnoreAsciiCase obfs "salamander")
      s!"{tag} hysteria2 only supports salamander obfs"
    rejectIf ((bytes password).length < 4)
      s!"{tag} hysteria2 salamander obfs password must be at least 4 bytes"

/-- The stream transports that `vless`, `vmess` and `trojan` share. -/
def isStreamProtocol (protocol : Protocol) : Bool :=
  protocol == .vless || protocol == .vmess || protocol == .trojan

def validateProtocolTransportFields (inbound : InboundConfig) : Check := do
  let protocol := protocolLabel inbound.protocol
  let transport := inbound.transport
  let network := trim transport.network
  rejectIf transport.proxyProtocol
    s!"{inbound.tag} {protocol} proxy_protocol is not implemented in keli-core-rs yet"
  let hasBandwidthOptions := 0 < transport.upMbps || 0 < transport.downMbps ||
    transport.ignoreClientBandwidth
  let hasObfsOptions := isGiven transport.obfs || isGiven transport.obfsPassword
  rejectIf (inbound.protocol != .hysteria2 && (hasBandwidthOptions || hasObfsOptions))
    s!"{inbound.tag} {protocol} does not support hysteria2 bandwidth/obfs transport options"
  rejectIf (!isBlank transport.congestionControl &&
      !(inbound.protocol == .tuic || inbound.protocol == .hysteria2))
    s!"{inbound.tag} {protocol} does not support quic congestion_control"
  rejectIf (inbound.protocol != .tuic && transport.zeroRttHandshake)
    s!"{inbound.tag} {protocol} does not support tuic transport options"
  let supportsHttpFields := isStreamProtocol inbound.protocol &&
    ["ws", "httpupgrade"].contains network
  let supportsServiceName := isStreamProtocol inbound.protocol && network == "grpc"
  rejectIf (isGiven transport.path && !supportsHttpFields)
    s!"{inbound.tag} {protocol} transport path is supported only for ws/httpupgrade"
  rejectIf (isGiven transport.host && !supportsHttpFields)
    s!"{inbound.tag} {protocol} transport host is supported only for ws/httpupgrade"
  rejectIf (isGiven transport.serviceName && !supportsServiceName)
    s!"{inbound.tag} {protocol} transport service_name is supported only for grpc"

def validateProtocolScopedFields (inbound : InboundConfig) : Check := do
  let protocol := protocolLabel inbound.protocol
  rejectIf (inbound.protocol != .shadowsocks && isGiven inbound.cipher)
    s!"{inbound.tag} {protocol} does not support cipher"
  rejectIf (inbound.protocol != .anyTls && !inbound.paddingScheme.isEmpty)
    s!"{inbound.tag} {protocol} does not support padding_scheme"
  validateProtocolTransportFields inbound

def validateFlow (inbound : InboundConfig) : Check :=
  let flow := trim inbound.flow
  if flow.isEmpty then .ok ()
  else do
    rejectIf (inbound.protocol != .vless) s!"{inbound.tag} flow {flow} is supported only for vless"
    rejectIf (flow != "xtls-rprx-vision") s!"{inbound.tag} vless flow {flow} is not supported"
    rejectIf (trim inbound.transport.network != "tcp")
      s!"{inbound.tag} vless vision currently requires tcp transport"
    rejectIf inbound.tls.isNone s!"{inbound.tag} vless vision requires tls"

/-- The user check of the protocols that cannot serve without a user. -/
def requireUsers (inbound : InboundConfig) : Check :=
  rejectIf inbound.users.isEmpty
    s!"{inbound.tag} {protocolLabel inbound.protocol} requires at least one user"

/-- The `socks` and `http` block of `InboundConfig::validate`. -/
def validatePlainTcp (inbound : InboundConfig) : Check := do
  let protocol := protocolLabel inbound.protocol
  rejectIf (trim inbound.transport.network != "tcp")
    s!"{inbound.tag} {protocol} currently supports only tcp transport"
  rejectIf inbound.tls.isSome s!"{inbound.tag} {protocol} currently supports only plain tcp"

/-- The `vless`, `vmess` and `trojan` blocks up to their user check. -/
def validateStreamTransport (env : Externals) (inbound : InboundConfig) :
    Check := do
  let protocol := protocolLabel inbound.protocol
  let network := trim inbound.transport.network
  rejectIf (!(["tcp", "ws", "httpupgrade", "grpc"].contains network))
    s!"{inbound.tag} {protocol} currently supports only tcp/ws/httpupgrade/grpc transport"
  validateTlsConfig env protocol inbound.tag network inbound.tls

def validateShadowsocksInbound (inbound : InboundConfig) : Check := do
  let network := toAsciiLowercase (trim inbound.transport.network)
  rejectIf (!(["tcp", "tcp,udp"].contains network) || inbound.tls.isSome)
    s!"{inbound.tag} shadowsocks currently supports only plain tcp or tcp,udp"
  requireUsers inbound
  let cipher := inbound.cipher.getD ""
  rejectIf (isBlank cipher) s!"{inbound.tag} shadowsocks cipher is required"
  rejectIf (!isSupportedShadowsocksCipher cipher)
    s!"{inbound.tag} shadowsocks cipher {cipher} is not supported"

def validateAnyTlsInbound (env : Externals) (inbound : InboundConfig) :
    Check := do
  let network := trim inbound.transport.network
  rejectIf (network != "tcp") s!"{inbound.tag} anytls currently supports only tcp transport"
  validateTlsConfig env "anytls" inbound.tag network inbound.tls
  requireUsers inbound

def validateMieruInbound (inbound : InboundConfig) : Check := do
  let network := toAsciiLowercase (trim inbound.transport.network)
  rejectIf (network != "tcp" || inbound.tls.isSome)
    s!"{inbound.tag} mieru currently supports only plain tcp transport"
  requireUsers inbound

/-- The inbound asks for HTTP/3, by its network or by ALPN. -/
def naiveH3 (inbound : InboundConfig) : Bool :=
  eqIgnoreAsciiCase (trim inbound.transport.network) "quic" || inbound.tls.any fun tls =>
      tls.alpn.any fun value => eqIgnoreAsciiCase (trim value) "h3"

def validateNaiveInbound (env : Externals) (inbound : InboundConfig) :
    Check := do
  let network := trim inbound.transport.network
  rejectIf (!(["tcp", "quic"].contains (toAsciiLowercase network)))
    s!"{inbound.tag} naive currently supports only tcp or quic transport"
  rejectIf inbound.tls.isNone s!"{inbound.tag} naive requires tls config"
  if naiveH3 inbound then
    validateQuicTlsConfig "naive" inbound.tag inbound.tls
  else
    validateTlsConfig env "naive" inbound.tag network inbound.tls
  requireUsers inbound

def validateTuicInbound (inbound : InboundConfig) : Check := do
  rejectIf (trim inbound.transport.network != "tuic")
    s!"{inbound.tag} tuic currently requires tuic transport"
  validateQuicTlsConfig "tuic" inbound.tag inbound.tls
  validateTuicTransportOptions inbound.tag inbound.transport

def validateHysteria2Inbound (inbound : InboundConfig) : Check := do
  let transport := inbound.transport
  rejectIf (!(["hysteria", "hysteria2"].contains (trim transport.network)))
    s!"{inbound.tag} hysteria2 currently requires hysteria transport"
  validateQuicTlsConfig "hysteria2" inbound.tag inbound.tls
  rejectIf (transport.ignoreClientBandwidth && (0 < transport.upMbps || 0 < transport.downMbps))
    s!"{inbound.tag} hysteria2 ignore_client_bandwidth conflicts with up_mbps/down_mbps"
  validateHysteria2TransportOptions inbound.tag transport

/-- The block of `InboundConfig::validate` for the inbound's own protocol. -/
def validateProtocol (env : Externals) (inbound : InboundConfig) : Check :=
  match inbound.protocol with
  | .socks | .http => validatePlainTcp inbound
  | .vless | .trojan => validateStreamTransport env inbound
  | .vmess => do
      validateStreamTransport env inbound
      requireUsers inbound
  | .shadowsocks => validateShadowsocksInbound inbound
  | .anyTls => validateAnyTlsInbound env inbound
  | .mieru => validateMieruInbound inbound
  | .naive => validateNaiveInbound env inbound
  | .tuic => validateTuicInbound inbound
  | .hysteria2 => validateHysteria2Inbound inbound

def InboundConfig.validate (env : Externals) (inbound : InboundConfig) :
    Check := do
  rejectIf (isBlank inbound.tag) "inbound tag is required"
  rejectIf (isBlank inbound.listen) s!"{inbound.tag} listen address is required"
  rejectIf (inbound.port == 0) s!"{inbound.tag} port is required"
  rejectIf (inbound.users.any CoreUser.isEmpty) s!"{inbound.tag} contains an empty user uuid"
  validateProtocolScopedFields inbound
  validateFlow inbound
  validateProtocol env inbound

def validatePolicy (policy : PolicyConfig) : Check := do
  rejectIf (policy.handshakeSecs == 0) "policy handshake_secs must be greater than 0"
  rejectIf (policy.connectionIdleSecs == 0) "policy connection_idle_secs must be greater than 0"
  rejectIf (policy.bufferSizeKib == 0) "policy buffer_size_kib must be greater than 0"
  rejectIf (policy.sniffingCacheMillis == 0) "policy sniffing_cache_millis must be greater than 0"
  rejectIf (policy.connectTimeoutSecs == 0) "policy connect_timeout_secs must be greater than 0"
  rejectIf (60 < policy.connectTimeoutSecs) "policy connect_timeout_secs must be at most 60"

namespace CoreConfig

/-- The inbound loop of `CoreConfig::validate`, with the tags seen so far. -/
def validateInbounds (env : Externals) : List String → List InboundConfig → Check
  | _, [] => .ok ()
  | seen, inbound :: rest => do
      inbound.validate env
      rejectIf (seen.contains inbound.tag) s!"duplicate inbound tag: {inbound.tag}"
      validateInbounds env (inbound.tag :: seen) rest

/-- `CoreConfig::validate_outbounds`, with the tags seen so far. -/
def validateOutbounds (env : Externals) : List String → List OutboundConfig → Check
  | _, [] => .ok ()
  | seen, outbound :: rest => do
      rejectIf (seen.contains outbound.tag) s!"duplicate outbound tag: {outbound.tag}"
      validateOutbound env outbound
      validateOutbounds env (outbound.tag :: seen) rest

def validateTargetList (env : Externals) (targets : List String) : Check :=
  validateRouteTargets env { targets, action := .direct }

def validateDns (env : Externals) (config : CoreConfig) : Check := do
  config.dns.servers.forM fun server => do
    rejectIf (isBlank server.address) "dns server address must not be empty"
    validateTargetList env server.domains
  validateTargetList env config.dns.privateIpAllowlist

/-- One route of `CoreConfig::validate_route_rules`. -/
def validateRouteRule (env : Externals) (outbounds : List OutboundConfig)
    (route : RouteRule) : Check := do
  validateRouteTargets env route
  match route.action with
  | .direct | .block => pure ()
  | .outbound tag =>
    match route.outbound with
    | some outbound =>
      rejectIf (outbound.tag != tag)
        s!"route outbound {tag} does not match embedded outbound {outbound.tag}"
      validateOutbound env outbound
    | none =>
      rejectIf (!(outbounds.map OutboundConfig.tag).contains tag)
        s!"route outbound {tag} is not configured"

def validateRouteRules (env : Externals) (config : CoreConfig) (routes : List RouteRule) : Check :=
  routes.forM (validateRouteRule env config.outbounds)

def validateRoutes (env : Externals) (config : CoreConfig) : Check := do
  config.validateRouteRules env config.routes
  config.inbounds.forM fun inbound => config.validateRouteRules env inbound.routes

def validate (env : Externals) (config : CoreConfig) : Check := do
  rejectIf (isBlank config.instanceId) "instance_id is required"
  rejectIf config.inbounds.isEmpty "at least one inbound is required"
  validateInbounds env [] config.inbounds
  validateOutbounds env [] config.outbounds
  config.validateDns env
  config.validateRoutes env
  validatePolicy config.policy

end CoreConfig

@[simp] theorem rejectIf_eq_ok (bad : Bool) (message : String) :
    rejectIf bad message = .ok () ↔ bad = false := by cases bad <;> simp [rejectIf]

@[simp] theorem check_bind_eq_ok (first : Check) (second : Unit → Check) :
    (first >>= second) = .ok () ↔ first = .ok () ∧ second () = .ok () := by
  cases first with
  | error error | ok value => simp [bind, Except.bind]

@[simp] theorem check_forM_eq_ok {α : Type} (items : List α) (check : α → Check) :
    items.forM check = .ok () ↔ ∀ item ∈ items, check item = .ok () := by
  induction items with
  | nil => simp [pure, Except.pure]
  | cons item items ih =>
    rw [forM_eq_forM] at ih ⊢
    rw [forM_cons, check_bind_eq_ok, ih, forall_mem_cons]

variable {env : Externals}

theorem InboundConfig.nonEmpty_of_validate
    {inbound : InboundConfig} (hvalid : inbound.validate env = .ok ()) :
    ∀ user ∈ inbound.users, user.isEmpty = false := by
  simp only [validate, check_bind_eq_ok, rejectIf_eq_ok] at hvalid
  intro user hmem
  simpa using any_eq_false.1 hvalid.2.2.2.1 user hmem

namespace CoreConfig

theorem validateInbounds_eq_ok (env : Externals) (seen : List String)
    (inbounds : List InboundConfig) : validateInbounds env seen inbounds = .ok () ↔
      (∀ inbound ∈ inbounds, inbound.validate env = .ok ()) ∧
        (inbounds.map tag).Nodup ∧ ∀ inbound ∈ inbounds, inbound.tag ∉ seen := by
  induction inbounds generalizing seen with
  | nil => simp [validateInbounds]
  | cons inbound rest ih =>
    rw [forall_mem_cons, forall_mem_cons]
    simp only [validateInbounds, check_bind_eq_ok, rejectIf_eq_ok, ih,
      contains_eq_mem, decide_eq_false_iff_not, map_cons, nodup_cons, mem_map, mem_cons, not_or]
    constructor
    · rintro ⟨hfirst, hseen, hrest, hnodup, hfresh⟩
      refine ⟨⟨hfirst, hrest⟩, ⟨?_, hnodup⟩, hseen, fun other hother => (hfresh other hother).2⟩
      rintro ⟨other, hother, heq⟩
      exact (hfresh other hother).1 heq
    · rintro ⟨⟨hfirst, hrest⟩, ⟨hnot, hnodup⟩, hseen, hfresh⟩
      refine ⟨hfirst, hseen, hrest, hnodup, fun other hother =>
        ⟨fun heq => hnot ⟨other, hother, heq⟩, hfresh other hother⟩⟩

theorem validate_eq_ok (env : Externals) (config : CoreConfig) : config.validate env = .ok () ↔
      isBlank config.instanceId = false ∧ config.inbounds ≠ [] ∧
        (∀ inbound ∈ config.inbounds, inbound.validate env = .ok ()) ∧
        (config.inbounds.map tag).Nodup ∧
        validateOutbounds env [] config.outbounds = .ok () ∧
        config.validateDns env = .ok () ∧ config.validateRoutes env = .ok () ∧
        validatePolicy config.policy = .ok () := by
  simp only [validate, check_bind_eq_ok, rejectIf_eq_ok,
    validateInbounds_eq_ok, isEmpty_eq_false_iff]
  constructor
  · rintro ⟨hid, hne, ⟨hinbounds, hnodup, -⟩, hrest⟩
    exact ⟨hid, hne, hinbounds, hnodup, hrest⟩
  · rintro ⟨hid, hne, hinbounds, hnodup, hrest⟩
    exact ⟨hid, hne, ⟨hinbounds, hnodup, by simp⟩, hrest⟩

theorem inbound_of_validate {config : CoreConfig}
    (hvalid : config.validate env = .ok ()) {inbound : InboundConfig}
    (hmem : inbound ∈ config.inbounds) : inbound.validate env = .ok () :=
  ((validate_eq_ok env config).1 hvalid).2.2.1 inbound hmem

theorem nodup_of_validate {config : CoreConfig}
    (hvalid : config.validate env = .ok ()) : (config.inbounds.map tag).Nodup :=
  ((validate_eq_ok env config).1 hvalid).2.2.2.1

end CoreConfig

end KeliCore
