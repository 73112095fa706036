/-
The stubs with reference parameters, grouped by their shape and in the order
of the C files.  What does not fit a shape is written out at the end.
-/
import UvMbt.Stubs

set_option autoImplicit false

namespace UvMbt.Stubs

open RefCall

/-- The stubs that call libuv and release their owned arguments, on every path
once: the `goto`s of the inits of the locks, and the two returns of
`setup_args`, `passwd_get_shell` and `tcp_keepalive_ex`, lead to one release
each. -/
inductive Call where
  -- `args.c`
  | setupArgs | getProcessTitle | setProcessTitle
  -- `barrier.c`
  | barrierInit | barrierWait
  -- `bytes.c`
  | bytesShrink
  -- `check.c`
  | checkStop
  -- `cond.c`
  | condInit | condCopy | condSignal | condBroadcast | condWait
  | condTimedwait
  -- `cpu_info.c`
  | cpuInfo
  -- `dl.c`
  | dlopen | dlsym | dlerror
  -- `env.c`
  | environCount | environGetName | environGetValue | osEnviron | osGetenv
  | osSetenv | osUnsetenv
  -- `error.c`
  | strerrorR
  -- `fs.c`
  | fsReqCleanup | fsGetResult | fsScandirNext | fsGetPtr | fsGetStatbuf
  | fsGetPath | fsGetDir | fsGetStatfs | statfsGetType | statfsGetBsize
  | statfsGetBavail | statfsGetBfree | statfsGetFiles | statfsGetFfree
  -- `fs_event.c`
  | fsEventStop
  -- `fs_poll.c`
  | fsPollStop | fsPollGetpath
  -- `handle.c`
  | isClosing | handleLoop | osFdToInt | fileno | handleOsSock
  | sendBufferSize | recvBufferSize
  -- `idle.c`
  | idleStop
  -- `if.c`
  | ifIndextoname | ifIndextoiid | interfaceAddresses
  -- `key.c`
  | keyCreate | keyGet | keySet
  -- `loop.c`
  | loopInit | loopConfigureBlockSignal | loopConfigure | loopClose | stop
  | run | loopAlive | now | updateTime | backendFd | backendTimeout
  -- `metrics.c`
  | metricsGetLoopCount | metricsGetEvents | metricsGetEventsWaiting
  | metricsInfo | metricsIdleTime
  -- `mutex.c`
  | mutexInit | mutexCopy | mutexLock | mutexTrylock | mutexUnlock
  -- `once.c`
  | once
  -- `os.c`
  | exepath | osHomedir | osUname | osTmpdir | cwd | chdir | osGethostname
  | uptime | residentSetMemory | loadavg | osGetpriority
  -- `passwd.c`
  | osGetPasswd | osGetPasswd2 | passwdGetUsername | passwdGetUid
  | passwdGetGid | passwdGetShell | groupGetGroupname | groupGetGid
  | groupGetMembers | osGetGroup
  -- `pipe.c`
  | pipeOpen | pipeBind | pipe | pipePendingCount | pipePendingType
  | pipeChmod | pipePendingInstances
  -- `poll.c`
  | pollStop
  -- `prepare.c`
  | prepareStop
  -- `process.c`
  | processGetPid | processOptionsSetFlags | processOptionsSetStdio
  | processOptionsSetUid | processOptionsSetGid | processKill
  -- `random.c`
  | randomSync
  -- `req.c`
  | cancel | reqGetType
  -- `rusage.c`
  | rusageGetUtimeSec | rusageGetUtimeUsec | rusageGetStimeSec
  | rusageGetStimeUsec | rusageGetMaxrss | rusageGetIxrss | rusageGetIdrss
  | rusageGetIsrss | rusageGetMinflt | rusageGetMajflt | rusageGetNswap
  | rusageGetInblock | rusageGetOublock | rusageGetMsgsnd | rusageGetMsgrcv
  | rusageGetNsignals | rusageGetNvcsw | rusageGetNivcsw | getrusage
  | getrusageThread
  -- `rwlock.c`
  | rwlockInit | rwlockCopy | rwlockRdlock | rwlockTryrdlock | rwlockRdunlock
  | rwlockWrlock | rwlockTrywrlock | rwlockWrunlock
  -- `sem.c`
  | semInit | semCopy | semPost | semWait | semTrywait
  -- `socket.c`
  | sockaddrInPort | sockaddrInAddr | inAddrNtop | inAddrPton
  | sockaddrIn6Port | sockaddrIn6ScopeId | sockaddrIn6Addr | in6AddrNtop
  | in6AddrPton | sockaddrFamily | ip4Addr | ip6Addr | ip4Name | ip6Name
  | ipName | osSockToInt | socketpair
  -- `stat.c`
  | statGetDev | statGetMode | statGetNlink | statGetUid | statGetGid
  | statGetRdev | statGetIno | statGetSize | statGetBlksize | statGetBlocks
  | statGetFlags | statGetGen | statGetAtimSec | statGetAtimNsec
  | statGetMtimSec | statGetMtimNsec | statGetCtimSec | statGetCtimNsec
  | statGetBirthtimSec | statGetBirthtimNsec
  -- `stream.c`
  | readStop | isReadable | isWritable | accept | streamSetBlocking
  | streamGetWriteQueueSize
  -- `string.c`
  | utf16LengthAsWtf8 | utf16ToWtf8 | wtf8LengthAsUtf16 | wtf8ToUtf16
  -- `tcp.c`
  | tcpOpen | tcpBind | tcpNodelay | tcpKeepalive | tcpKeepaliveEx
  | tcpGetsockname | tcpGetpeername | tcpSimultaneousAccepts
  -- `thread.c`
  | threadJoin | threadEqual | threadSelf | threadCopy | threadDetach
  | threadSetname | threadSetpriority
  -- `time.c`
  | clockGettime | gettimeofday
  -- `timer.c`
  | timerStop | timerSetRepeat | timerGetRepeat | timerGetDueIn
  -- `tty.c`
  | ttySetMode | ttyGetWinsize | ttyGetVtermState
  -- `udp.c`
  | udpConnect | udpBind | udpRecvStop | udpGetsockname | udpSetMulticastLoop
  | udpSetMulticastTtl | udpSetMulticastInterface | udpSetBroadcast
  | udpSetTtl | udpTrySend2 | udpUsingRecvmmsg | udpGetSendQueueSize
  | udpGetSendQueueCount
  deriving Repr, DecidableEq

def Call.stub : Call → Stub
  -- `args.c`
  | .setupArgs => call [.argv] []
  | .getProcessTitle => call [.buffer] []
  | .setProcessTitle => call [.title] []
  -- `barrier.c`
  | .barrierInit => call [.barrier] []
  | .barrierWait => call [.barrier] []
  -- `bytes.c`
  | .bytesShrink => call [] [.bytes]
  -- `check.c`
  | .checkStop => call [.check] []
  -- `cond.c`
  | .condInit => call [.cond] []
  | .condCopy => call [.self, .other] []
  | .condSignal => call [.cond] []
  | .condBroadcast => call [.cond] []
  | .condWait => call [.cond, .mutex] []
  | .condTimedwait => call [.cond, .mutex] []
  -- `cpu_info.c`
  | .cpuInfo => call [.cpuInfos, .count] []
  -- `dl.c`
  | .dlopen => call [.filename, .lib] []
  | .dlsym => call [.lib, .name, .ptr] []
  | .dlerror => call [.lib] []
  -- `env.c`
  | .environCount => call [] [.env]
  | .environGetName => call [] [.env]
  | .environGetValue => call [] [.env]
  | .osEnviron => call [.env] []
  | .osGetenv => call [.name, .bytes, .size] []
  | .osSetenv => call [.name, .value] []
  | .osUnsetenv => call [.name] []
  -- `error.c`
  | .strerrorR => call [.bytes] []
  -- `fs.c`
  | .fsReqCleanup => call [.fs] []
  | .fsGetResult => call [.fs] []
  | .fsScandirNext => call [.fs] []
  | .fsGetPtr => call [.fs] []
  | .fsGetStatbuf => call [.fs] []
  | .fsGetPath => call [.fs] []
  | .fsGetDir => call [.fs] []
  | .fsGetStatfs => call [.fs] []
  | .statfsGetType => call [] [.statfs]
  | .statfsGetBsize => call [] [.statfs]
  | .statfsGetBavail => call [] [.statfs]
  | .statfsGetBfree => call [] [.statfs]
  | .statfsGetFiles => call [] [.statfs]
  | .statfsGetFfree => call [] [.statfs]
  -- `fs_event.c`
  | .fsEventStop => call [.handle] []
  -- `fs_poll.c`
  | .fsPollStop => call [.handle] []
  | .fsPollGetpath => call [.handle, .buffer, .length] []
  -- `handle.c`
  | .isClosing => call [.handle] []
  | .handleLoop => call [.handle] []
  | .osFdToInt => call [] [.fd]
  | .fileno => call [] [.handle, .fd]
  | .handleOsSock => call [.handle, .sock] []
  | .sendBufferSize => call [.handle, .size] []
  | .recvBufferSize => call [.handle, .size] []
  -- `idle.c`
  | .idleStop => call [.idle] []
  -- `if.c`
  | .ifIndextoname => call [] [.ifname, .ifsize]
  | .ifIndextoiid => call [] [.ifname]
  | .interfaceAddresses => call [.addresses, .count] []
  -- `key.c`
  | .keyCreate => call [.key] []
  | .keyGet => call [.key] []
  | .keySet => call [.key] []
  -- `loop.c`
  | .loopInit => call [.loop] []
  | .loopConfigureBlockSignal => call [.loop] []
  | .loopConfigure => call [.loop] []
  | .loopClose => call [.loop] []
  | .stop => call [.loop] []
  | .run => call [.loop] []
  | .loopAlive => call [.loop] []
  | .now => call [.loop] []
  | .updateTime => call [.loop] []
  | .backendFd => call [.loop] []
  | .backendTimeout => call [.loop] []
  -- `metrics.c`
  | .metricsGetLoopCount => call [.metrics] []
  | .metricsGetEvents => call [.metrics] []
  | .metricsGetEventsWaiting => call [.metrics] []
  | .metricsInfo => call [.loop, .metrics] []
  | .metricsIdleTime => call [.loop] []
  -- `mutex.c`
  | .mutexInit => call [.mutex] []
  | .mutexCopy => call [.self, .other] []
  | .mutexLock => call [.mutex] []
  | .mutexTrylock => call [.mutex] []
  | .mutexUnlock => call [.mutex] []
  -- `once.c`
  | .once => call [.once] []
  -- `os.c`
  | .exepath => call [.buffer, .size] []
  | .osHomedir => call [.buffer, .size] []
  | .osUname => call [.buffer] []
  | .osTmpdir => call [.buffer, .size] []
  | .cwd => call [.buffer, .length] []
  | .chdir => call [.path] []
  | .osGethostname => call [.name, .size] []
  | .uptime => call [] [.uptime]
  | .residentSetMemory => call [.rss] []
  | .loadavg => call [.avg] []
  | .osGetpriority => call [.priority] []
  -- `passwd.c`
  | .osGetPasswd => call [.passwd] []
  | .osGetPasswd2 => call [.passwd] []
  | .passwdGetUsername => call [.passwd] []
  | .passwdGetUid => call [.passwd] []
  | .passwdGetGid => call [.passwd] []
  | .passwdGetShell => call [.passwd] []
  | .groupGetGroupname => call [.group] []
  | .groupGetGid => call [.group] []
  | .groupGetMembers => call [.group] []
  | .osGetGroup => call [.group] []
  -- `pipe.c`
  | .pipeOpen => call [.handle] []
  | .pipeBind => call [.handle, .name] []
  | .pipe => call [.fds] []
  | .pipePendingCount => call [.handle] []
  | .pipePendingType => call [.handle] []
  | .pipeChmod => call [.handle] []
  | .pipePendingInstances => call [.handle] []
  -- `poll.c`
  | .pollStop => call [.poll] []
  -- `prepare.c`
  | .prepareStop => call [.prepare] []
  -- `process.c`
  | .processGetPid => call [.process] []
  | .processOptionsSetFlags => call [.options] []
  | .processOptionsSetStdio => call [.stdio, .options] []
  | .processOptionsSetUid => call [.options] []
  | .processOptionsSetGid => call [.options] []
  | .processKill => call [.process] []
  -- `random.c`
  | .randomSync => call [.loop, .random, .buffer] []
  -- `req.c`
  | .cancel => call [.req] []
  | .reqGetType => call [.req] []
  -- `rusage.c`
  | .rusageGetUtimeSec => call [] [.rusage]
  | .rusageGetUtimeUsec => call [] [.rusage]
  | .rusageGetStimeSec => call [] [.rusage]
  | .rusageGetStimeUsec => call [] [.rusage]
  | .rusageGetMaxrss => call [] [.rusage]
  | .rusageGetIxrss => call [] [.rusage]
  | .rusageGetIdrss => call [] [.rusage]
  | .rusageGetIsrss => call [] [.rusage]
  | .rusageGetMinflt => call [] [.rusage]
  | .rusageGetMajflt => call [] [.rusage]
  | .rusageGetNswap => call [] [.rusage]
  | .rusageGetInblock => call [] [.rusage]
  | .rusageGetOublock => call [] [.rusage]
  | .rusageGetMsgsnd => call [] [.rusage]
  | .rusageGetMsgrcv => call [] [.rusage]
  | .rusageGetNsignals => call [] [.rusage]
  | .rusageGetNvcsw => call [] [.rusage]
  | .rusageGetNivcsw => call [] [.rusage]
  | .getrusage => call [] [.rusage]
  | .getrusageThread => call [] [.rusage]
  -- `rwlock.c`
  | .rwlockInit => call [.rwlock] []
  | .rwlockCopy => call [.self, .other] []
  | .rwlockRdlock => call [.rwlock] []
  | .rwlockTryrdlock => call [.rwlock] []
  | .rwlockRdunlock => call [.rwlock] []
  | .rwlockWrlock => call [.rwlock] []
  | .rwlockTrywrlock => call [.rwlock] []
  | .rwlockWrunlock => call [.rwlock] []
  -- `sem.c`
  | .semInit => call [.sem] []
  | .semCopy => call [.self, .other] []
  | .semPost => call [.sem] []
  | .semWait => call [.sem] []
  | .semTrywait => call [.sem] []
  -- `socket.c`
  | .sockaddrInPort => call [] [.addr]
  | .sockaddrInAddr => call [] [.addr]
  | .inAddrNtop => call [] [.dst]
  | .inAddrPton => call [] [.src, .dst]
  | .sockaddrIn6Port => call [] [.addr]
  | .sockaddrIn6ScopeId => call [] [.addr]
  | .sockaddrIn6Addr => call [] [.addr]
  | .in6AddrNtop => call [] [.dst]
  | .in6AddrPton => call [] [.src, .dst]
  | .sockaddrFamily => call [] [.addr]
  | .ip4Addr => call [] [.ip, .addr]
  | .ip6Addr => call [] [.ip, .addr]
  | .ip4Name => call [] [.src, .dst]
  | .ip6Name => call [] [.src, .dst]
  | .ipName => call [] [.src, .dst]
  | .osSockToInt => call [] [.sock]
  | .socketpair => call [.sock0, .sock1] []
  -- `stat.c`
  | .statGetDev => call [.statPtr] []
  | .statGetMode => call [.statPtr] []
  | .statGetNlink => call [.statPtr] []
  | .statGetUid => call [.statPtr] []
  | .statGetGid => call [.statPtr] []
  | .statGetRdev => call [.statPtr] []
  | .statGetIno => call [.statPtr] []
  | .statGetSize => call [.statPtr] []
  | .statGetBlksize => call [.statPtr] []
  | .statGetBlocks => call [.statPtr] []
  | .statGetFlags => call [.statPtr] []
  | .statGetGen => call [.statPtr] []
  | .statGetAtimSec => call [.statPtr] []
  | .statGetAtimNsec => call [.statPtr] []
  | .statGetMtimSec => call [.statPtr] []
  | .statGetMtimNsec => call [.statPtr] []
  | .statGetCtimSec => call [.statPtr] []
  | .statGetCtimNsec => call [.statPtr] []
  | .statGetBirthtimSec => call [.statPtr] []
  | .statGetBirthtimNsec => call [.statPtr] []
  -- `stream.c`
  | .readStop => call [.stream] []
  | .isReadable => call [] [.stream]
  | .isWritable => call [] [.stream]
  | .accept => call [.server, .client] []
  | .streamSetBlocking => call [.stream] []
  | .streamGetWriteQueueSize => call [.stream] []
  -- `string.c`
  | .utf16LengthAsWtf8 => call [.utf16] []
  | .utf16ToWtf8 => call [.utf16, .wtf8] []
  | .wtf8LengthAsUtf16 => call [.wtf8] []
  | .wtf8ToUtf16 => call [.utf16, .wtf8] []
  -- `tcp.c`
  | .tcpOpen => call [.tcp, .sock] []
  | .tcpBind => call [.tcp, .addr] []
  | .tcpNodelay => call [.tcp] []
  | .tcpKeepalive => call [.tcp] []
  | .tcpKeepaliveEx => call [.tcp] []
  | .tcpGetsockname => call [.tcp, .addr] []
  | .tcpGetpeername => call [.tcp, .addr] []
  | .tcpSimultaneousAccepts => call [.tcp] []
  -- `thread.c`
  | .threadJoin => call [.thread] []
  | .threadEqual => call [.t1, .t2] []
  | .threadSelf => call [.thread] []
  | .threadCopy => call [.self, .other] []
  | .threadDetach => call [.thread] []
  | .threadSetname => call [.name] []
  | .threadSetpriority => call [.thread] []
  -- `time.c`
  | .clockGettime => call [.timespec] []
  | .gettimeofday => call [.timeval] []
  -- `timer.c`
  | .timerStop => call [.timer] []
  | .timerSetRepeat => call [.timer] []
  | .timerGetRepeat => call [.timer] []
  | .timerGetDueIn => call [.timer] []
  -- `tty.c`
  | .ttySetMode => call [.handle] []
  | .ttyGetWinsize => call [.handle, .width, .height] []
  | .ttyGetVtermState => call [] [.state]
  -- `udp.c`
  | .udpConnect => call [.addr, .udp] []
  | .udpBind => call [.addr, .udp] []
  | .udpRecvStop => call [.udp] []
  | .udpGetsockname => call [.udp, .name] []
  | .udpSetMulticastLoop => call [.udp] []
  | .udpSetMulticastTtl => call [.udp] []
  | .udpSetMulticastInterface => call [.interfaceAddr, .udp] []
  | .udpSetBroadcast => call [.udp] []
  | .udpSetTtl => call [.udp] []
  | .udpTrySend2 => call [.bufs, .bufsOffset, .bufsLength, .addrs, .udp] []
  | .udpUsingRecvmmsg => call [.udp] []
  | .udpGetSendQueueSize => call [.udp] []
  | .udpGetSendQueueCount => call [.udp] []

/-- The stubs that store closures. -/
inductive Store where
  -- `check.c`
  | checkStart
  -- `fs_event.c`
  | fsEventStart
  -- `fs_poll.c`
  | fsPollStart
  -- `handle.c`
  | close
  -- `idle.c`
  | idleStart
  -- `poll.c`
  | pollStart
  -- `prepare.c`
  | prepareStart
  -- `process.c`
  | processOptionsSetExitCb
  -- `stream.c`
  | readStart | listen
  -- `tcp.c`
  | tcpCloseReset
  -- `timer.c`
  | timerStart
  -- `udp.c`
  | udpRecvStart
  deriving Repr, DecidableEq

def Store.stub : Store → Stub
  -- `check.c`
  | .checkStart => store .handleData [.cb] [.check]
  -- `fs_event.c`
  | .fsEventStart => store .handleData [.cb] [.handle, .path]
  -- `fs_poll.c`
  | .fsPollStart => store .handleData [.cb] [.handle, .path]
  -- `handle.c`
  | .close => store .handleData [.closeCb] [.handle]
  -- `idle.c`
  | .idleStart => store .handleData [.cb] [.idle]
  -- `poll.c`
  | .pollStart => store .handleData [.cb] [.poll]
  -- `prepare.c`
  | .prepareStart => store .handleData [.cb] [.prepare]
  -- `process.c`
  | .processOptionsSetExitCb => store .optionsField [.exitCb] [.options]
  -- `stream.c`
  | .readStart => store .handleData [.readCb, .allocCb] [.stream]
  | .listen => store .handleData [.cb] [.stream]
  -- `tcp.c`
  | .tcpCloseReset => store .handleData [.closeCb] [.tcp]
  -- `timer.c`
  | .timerStart => store .handleData [.cb] [.timer]
  -- `udp.c`
  | .udpRecvStart => store .handleData [.readCb, .allocCb] [.udp]

/-- The stubs that store an owned argument. -/
inductive Transfer where
  -- `process.c`
  | stdioContainerCreatePipe | stdioContainerInheritStream
  | processOptionsSetFile | processOptionsSetArgs | processOptionsSetEnv
  | processOptionsSetCwd
  deriving Repr, DecidableEq

def Transfer.stub : Transfer → Stub
  -- `process.c`
  | .stdioContainerCreatePipe => transfer .containerStream .stream []
  | .stdioContainerInheritStream => transfer .containerStream .stream []
  | .processOptionsSetFile => transfer .optionsField .file [.options]
  | .processOptionsSetArgs => transfer .optionsField .args [.options]
  | .processOptionsSetEnv => transfer .optionsField .env [.options]
  | .processOptionsSetCwd => transfer .optionsField .cwd [.options]

/-- The inits that leave both arguments to libuv. -/
inductive Init where
  -- `check.c`
  | checkInit
  -- `fs_event.c`
  | fsEventInit
  -- `fs_poll.c`
  | fsPollInit
  -- `idle.c`
  | idleInit
  -- `pipe.c`
  | pipeInit
  -- `poll.c`
  | pollInit
  -- `prepare.c`
  | prepareInit
  -- `tcp.c`
  | tcpInit | tcpInitEx
  -- `timer.c`
  | timerInit
  -- `udp.c`
  | udpInit | udpInitEx
  deriving Repr, DecidableEq

def Init.stub : Init → Stub
  -- `check.c`
  | .checkInit => init .check .check
  -- `fs_event.c`
  | .fsEventInit => init .fsEvent .handle
  -- `fs_poll.c`
  | .fsPollInit => init .fsPoll .handle
  -- `idle.c`
  | .idleInit => init .idle .idle
  -- `pipe.c`
  | .pipeInit => init .pipe .handle
  -- `poll.c`
  | .pollInit => init .poll .poll
  -- `prepare.c`
  | .prepareInit => init .prepare .prepare
  -- `tcp.c`
  | .tcpInit => init .tcp .tcp
  | .tcpInitEx => init .tcp .tcp
  -- `timer.c`
  | .timerInit => init .timer .timer
  -- `udp.c`
  | .udpInit => init .udp .udp
  | .udpInitEx => init .udp .udp

/-- The stubs that do not release all they own. -/
inductive Leaving where
  -- `async.c`
  | asyncSend
  -- `thread.c`
  | threadSetaffinity | threadGetaffinity | threadGetname | threadGetpriority
  -- `udp.c`
  | udpGetpeername
  deriving Repr, DecidableEq

def Leaving.stub : Leaving → Stub
  -- `async.c`
  | .asyncSend => leaving [] [.async]
  -- `thread.c`
  | .threadSetaffinity => leaving [.thread] [.cpumask, .oldmask]
  | .threadGetaffinity => leaving [.thread] [.cpumask]
  | .threadGetname => leaving [.thread] [.name]
  | .threadGetpriority => leaving [.thread] [.priority]
  -- `udp.c`
  | .udpGetpeername => leaving [.udp] [.name]

/-- The stubs of the requests. -/
inductive Submit where
  -- `dns.c`
  | getaddrinfo | getnameinfo
  -- `fs.c`
  | fsOpen | fsClose | fsRead | fsWrite | fsFtruncate | fsFsync | fsFdatasync
  | fsMkdir | fsRmdir | fsCopyfile | fsUnlink | fsScandir | fsRename | fsStat
  | fsLstat | fsFstat | fsRealpath | fsAccess | fsMkdtemp | fsMkstemp
  | fsOpendir | fsClosedir | fsReaddir | fsLink | fsSymlink | fsReadlink
  | fsChown | fsFchown | fsLchown | fsSendfile | fsChmod | fsFchmod | fsStatfs
  | fsUtime | fsFutime | fsLutime
  -- `pipe.c`
  | pipeConnect2
  -- `random.c`
  | random
  -- `shutdown.c`
  | shutdown
  -- `tcp.c`
  | tcpConnect
  -- `udp.c`
  | udpSend
  -- `work.c`
  | queueWork
  -- `write.c`
  | write | write2
  deriving Repr, DecidableEq

def Submit.stub : Submit → Stub
  -- `dns.c`
  | .getaddrinfo => submit .req [.loop, .node, .service, .hints] [.cb] [.hints]
        fun args => .getaddrinfo .loop .cb .node .service (args .hints)
  | .getnameinfo => submit .req [.loop, .cb, .addr] [] [] fun _ =>
        .getnameinfo .loop .cb .addr
  -- `fs.c`
  | .fsOpen => submitFs .fs [.path] (.fsOpen .loop .path .cb)
  | .fsClose => submitFs .fs [] (.fsClose .loop .cb)
  | .fsRead =>
      submitFs .fs [.bufsBase, .bufsOffset, .bufsLength]
        (.fsRead .loop .bufsBase .bufsOffset .bufsLength .cb)
  | .fsWrite =>
      submitFs .fs [.bufsBase, .bufsOffset, .bufsLength]
        (.fsWrite .loop .bufsBase .bufsOffset .bufsLength .cb)
  | .fsFtruncate => submitFs .fs [] (.fsFtruncate .loop .cb)
  | .fsFsync => submitFs .fs [] (.fsFsync .loop .cb)
  | .fsFdatasync => submitFs .fs [] (.fsFdatasync .loop .cb)
  | .fsMkdir => submitFs .fs [.path] (.fsMkdir .loop .path .cb)
  | .fsRmdir => submitFs .fs [.path] (.fsRmdir .loop .path .cb)
  | .fsCopyfile =>
      submitFs .fs [.path, .newPath] (.fsCopyfile .loop .path .newPath .cb)
  | .fsUnlink => submitFs .fs [.path] (.fsUnlink .loop .path .cb)
  | .fsScandir => submitFs .fs [.path] (.fsScandir .loop .path .cb)
  | .fsRename =>
      submitFs .req [.path, .newPath] (.fsRename .loop .path .newPath .cb)
  | .fsStat => submitFs .fs [.path] (.fsStat .loop .path .cb)
  | .fsLstat => submitFs .fs [.path] (.fsLstat .loop .path .cb)
  | .fsFstat => submitFs .fs [] (.fsFstat .loop .cb)
  | .fsRealpath => submitFs .fs [.path] (.fsRealpath .loop .path .cb)
  | .fsAccess => submitFs .fs [.path] (.fsAccess .loop .path .cb)
  | .fsMkdtemp =>
      submitFs .fs [.templatePath] (.fsMkdtemp .loop .templatePath .cb)
  | .fsMkstemp =>
      submitFs .fs [.templatePath] (.fsMkstemp .loop .templatePath .cb)
  | .fsOpendir => submitFs .fs [.path] (.fsOpendir .loop .path .cb)
  | .fsClosedir => submitFs .fs [] (.fsClosedir .loop .cb)
  | .fsReaddir => submitFs .fs [] (.fsReaddir .loop .cb)
  | .fsLink => submitFs .fs [.path, .newPath] (.fsLink .loop .path .newPath .cb)
  | .fsSymlink =>
      submitFs .fs [.path, .newPath] (.fsSymlink .loop .path .newPath .cb)
  | .fsReadlink => submitFs .fs [.path] (.fsReadlink .loop .path .cb)
  | .fsChown => submitFs .fs [.path] (.fsChown .loop .path .cb)
  | .fsFchown => submitFs .fs [] (.fsFchown .loop .cb)
  | .fsLchown => submitFs .fs [.path] (.fsLchown .loop .path .cb)
  | .fsSendfile => submitFs .fs [] (.fsSendfile .loop .cb)
  | .fsChmod => submitFs .fs [.path] (.fsChmod .loop .path .cb)
  | .fsFchmod => submitFs .fs [] (.fsFchmod .loop .cb)
  | .fsStatfs => submitFs .fs [.path] (.fsStatfs .loop .path .cb)
  | .fsUtime => submitFs .fs [.path] (.fsUtime .loop .path .cb)
  | .fsFutime => submitFs .fs [] (.fsFutime .loop .cb)
  | .fsLutime => submitFs .fs [.path] (.fsLutime .loop .path .cb)
  -- `pipe.c`
  | .pipeConnect2 => submit .req [.handle, .name] [.cb] [] fun _ =>
        .pipeConnect2 .handle .name .cb
  -- `random.c`
  | .random => submit .random [.loop, .buffer] [.cb] [] fun _ =>
        .random .loop .buffer .cb
  -- `shutdown.c`
  | .shutdown => submit .req [.handle] [.cb] [] fun _ => .shutdown .handle .cb
  -- `tcp.c`
  | .tcpConnect => submit .connect [.tcp, .addr] [.cb] [] fun _ =>
        .tcpConnect .tcp .addr .cb
  -- `udp.c`
  | .udpSend => submit .req [.udp, .bufs, .bufsOffset, .bufsLength, .addr] [.cb]
        [.addr] fun args =>
          .udpSend .udp .bufs .bufsOffset .bufsLength (args .addr) .cb
  -- `work.c`
  | .queueWork => submit .req [.loop] [.workCb, .afterCb] [] fun _ =>
        .queueWork .loop .workCb .afterCb
  -- `write.c`
  | .write =>
      submit .req [.handle, .bufs, .bufsOffset, .bufsLength] [.cb] [] fun _ =>
        .write .handle .bufs .bufsOffset .bufsLength .cb
  | .write2 => submit .req
        [.handle, .bufs, .bufsOffset, .bufsLength, .sendHandle] [.cb] []
        fun _ =>
          .write2 .handle .bufs .bufsOffset .bufsLength .sendHandle .cb

/-- The file system calls without a callback. -/
inductive FsSync where
  -- `fs.c`
  | fsOpenSync | fsCloseSync | fsReadSync | fsWriteSync | fsFsyncSync
  | fsFdatasyncSync | fsMkdirSync | fsRmdirSync | fsCopyfileSync
  | fsUnlinkSync | fsScandirSync | fsRenameSync | fsStatSync | fsLstatSync
  | fsRealpathSync | fsAccessSync | fsMkdtempSync | fsMkstempSync | fsLinkSync
  | fsSymlinkSync | fsReadlinkSync | fsChownSync | fsFchownSync | fsLchownSync
  | fsSendfileSync | fsChmodSync | fsFchmodSync | fsStatfsSync | fsUtimeSync
  | fsFutimeSync | fsLutimeSync
  deriving Repr, DecidableEq

def FsSync.stub : FsSync → Stub
  -- `fs.c`
  | .fsOpenSync => fsSync .fs [] [.path]
  | .fsCloseSync => fsSync .fs [] []
  | .fsReadSync => fsSync .fs [] [.bufsBase, .bufsOffset, .bufsLength]
  | .fsWriteSync => fsSync .fs [.bufsBase] [.bufsOffset, .bufsLength]
  | .fsFsyncSync => fsSync .fs [] []
  | .fsFdatasyncSync => fsSync .fs [] []
  | .fsMkdirSync => fsSync .fs [] [.path]
  | .fsRmdirSync => fsSync .fs [] [.path]
  | .fsCopyfileSync => fsSync .fs [] [.path, .newPath]
  | .fsUnlinkSync => fsSync .fs [] [.path]
  | .fsScandirSync => fsSync .fs [] [.path]
  | .fsRenameSync => fsSync .req [] [.path, .newPath]
  | .fsStatSync => fsSync .fs [] [.path]
  | .fsLstatSync => fsSync .fs [] [.path]
  | .fsRealpathSync => fsSync .fs [] [.path]
  | .fsAccessSync => fsSync .fs [] [.path]
  | .fsMkdtempSync => fsSync .fs [] [.templatePath]
  | .fsMkstempSync => fsSync .fs [] [.templatePath]
  | .fsLinkSync => fsSync .fs [] [.path, .newPath]
  | .fsSymlinkSync => fsSync .fs [] [.path, .newPath]
  | .fsReadlinkSync => fsSync .fs [] [.path]
  | .fsChownSync => fsSync .fs [] [.path]
  | .fsFchownSync => fsSync .fs [] []
  | .fsLchownSync => fsSync .fs [] [.path]
  | .fsSendfileSync => fsSync .fs [] []
  | .fsChmodSync => fsSync .fs [] [.path]
  | .fsFchmodSync => fsSync .fs [] []
  | .fsStatfsSync => fsSync .fs [] [.path]
  | .fsUtimeSync => fsSync .fs [] [.path]
  | .fsFutimeSync => fsSync .fs [] []
  | .fsLutimeSync => fsSync .fs [] [.path]

/-- The other stubs. -/
inductive Other where
  | asyncInit | addrinfoResultsIterate | walk | printAllHandles
  | pollInitSocket | spawn | signalInit | signalStart | signalStartOneshot
  | signalStop | threadCreate | ttyInit | udpOpen | udpSetMembership
  | udpSetSourceMembership | udpTrySend
  deriving Repr, DecidableEq

/-- A callback called `entries` times with one more reference to itself. -/
def callEach (args : Args) (closure : Param) (entries : Nat) : Trace :=
  (List.replicate entries
    [.incref (args closure), .move (args closure) .callbackArgument]).flatten

/-- `moonbit_uv_addrinfo_results_iterate` stops when the callback says so. -/
def addrinfoResultsIterate : Stub where
  signature := ⟨[], [], [.results, .cb], [], by decide⟩
  trace args reply := use args [.results] ++ callEach args .cb reply.entries

def walk : Stub where
  signature := ⟨[.loop], [.walkCb], [], [], by decide⟩
  trace args reply := use args [.loop] ++
    callEach args .walkCb reply.entries ++ decref args [.loop, .walkCb]

def printAllHandles : Stub where
  signature := ⟨[.loop], [], [], [], by decide⟩
  trace args reply :=
    -- without a stream it returns at once
    if reply.opened then use args [.loop] ++ decref args [.loop] else []

/-- `moonbit_uv_signal_start` and `_start_oneshot` keep their argument. -/
def signalStart : Stub where
  signature := ⟨[.signal], [.cb], [], [], by decide⟩
  trace args _ := keep args .handleData [.cb] ++ use args [.signal]

/-- `moonbit_uv_signal_stop` releases its argument twice. -/
def signalStop : Stub where
  signature := ⟨[.signal], [], [], [], by decide⟩
  trace args _ := use args [.signal] ++ decref args [.signal, .signal]

/-- The thread gets the closure; an error releases it. -/
def threadCreate : Stub where
  signature := ⟨[.thread], [.cb], [], [], by decide⟩
  trace args reply := use args [.thread] ++
    (if reply.answer = .accepted then keep args .threadEntry [.cb]
      else decref args [.cb]) ++
    decref args [.thread]

/-- The C parameter is a `uv_os_sock_t` and not a pointer to the `OsSock`. -/
def udpOpen : Stub where
  signature := ⟨[.udp, .sock], [], [], [], by decide⟩
  trace args _ := use args [.udp] ++ [.asValue (args .sock)] ++
    decref args [.udp]

def udpSetMembership : Stub where
  signature := ⟨[.udp, .multicastAddr, .interfaceAddr], [], [], [], by decide⟩
  trace args _ := use args [.udp, .multicastAddr] ++
    useIf args .interfaceAddr ++ decref args [.multicastAddr] ++
    decrefIf args .interfaceAddr ++ decref args [.udp]

def udpSetSourceMembership : Stub where
  signature := ⟨[.udp, .multicastAddr, .interfaceAddr, .sourceAddr], [], [],
    [], by decide⟩
  trace args _ := use args [.udp, .multicastAddr, .sourceAddr] ++
    useIf args .interfaceAddr ++ decref args [.multicastAddr] ++
    decrefIf args .interfaceAddr ++ decref args [.sourceAddr, .udp]

def udpTrySend : Stub where
  signature := ⟨[.udp, .bufs, .bufsOffset, .bufsLength, .addr], [], [],
    [.addr], by decide⟩
  trace args _ := use args [.udp, .bufs, .bufsOffset, .bufsLength] ++
    useIf args .addr ++ decref args [.bufs, .bufsOffset, .bufsLength] ++
    decrefIf args .addr ++ decref args [.udp]

def Other.stub : Other → Stub
  -- the handle is released although libuv has it
  | .asyncInit => initWith .async .async [.cb] [.async] []
  | .addrinfoResultsIterate => Stubs.addrinfoResultsIterate
  | .walk => Stubs.walk
  | .printAllHandles => Stubs.printAllHandles
  | .pollInitSocket => initWith .poll .poll [] [.osSock] [.osSock]
  | .spawn => initWith .process .process [] [.options] [.options]
  -- the handle is released although libuv has it
  | .signalInit => initWith .signal .signal [] [.signal] []
  | .signalStart | .signalStartOneshot => Stubs.signalStart
  | .signalStop => Stubs.signalStop
  | .threadCreate => Stubs.threadCreate
  -- the loop and the handle are released although libuv has them
  | .ttyInit => initWith .tty .handle [] [.loop, .handle] []
  | .udpOpen => Stubs.udpOpen
  | .udpSetMembership => Stubs.udpSetMembership
  | .udpSetSourceMembership => Stubs.udpSetSourceMembership
  | .udpTrySend => Stubs.udpTrySend

/-- Every exported stub with a reference parameter that its extern marks. -/
inductive Export where
  | call (stub : Call)
  | store (stub : Store)
  | transfer (stub : Transfer)
  | init (stub : Init)
  | leaving (stub : Leaving)
  | submit (stub : Submit)
  | fsSync (stub : FsSync)
  | other (stub : Other)
  deriving Repr, DecidableEq

def Export.stub : Export → Stub
  | .call stub => stub.stub
  | .store stub => stub.stub
  | .transfer stub => stub.stub
  | .init stub => stub.stub
  | .leaving stub => stub.stub
  | .submit stub => stub.stub
  | .fsSync stub => stub.stub
  | .other stub => stub.stub

end UvMbt.Stubs
