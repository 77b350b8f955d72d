import CallTrace.CallTable

/-!
The call table of Linux on x86-64: the first 102 call numbers, and which calls concern the network,
files and processes.
-/

namespace CallTrace.Linux

/-- The calls by their numbers, from 0 on. -/
def callNames : List String :=
  ["read", "write", "open", "close", "stat", "fstat", "lstat", "poll", "lseek", "mmap",
   "mprotect", "munmap", "brk", "rt_sigaction", "rt_sigprocmask", "rt_sigreturn", "ioctl",
   "pread64", "pwrite64", "readv", "writev", "access", "pipe", "select", "sched_yield", "mremap",
   "msync", "mincore", "madvise", "shmget", "shmat", "shmctl", "dup", "dup2", "pause",
   "nanosleep", "getitimer", "alarm", "setitimer", "getpid", "sendfile", "socket", "connect",
   "accept", "sendto", "recvfrom", "sendmsg", "recvmsg", "shutdown", "bind", "listen",
   "getsockname", "getpeername", "socketpair", "setsockopt", "getsockopt", "clone", "fork",
   "vfork", "execve", "exit", "wait4", "kill", "uname", "semget", "semop", "semctl", "shmdt",
   "msgget", "msgsnd", "msgrcv", "msgctl", "fcntl", "flock", "fsync", "fdatasync", "truncate",
   "ftruncate", "getdents", "getcwd", "chdir", "fchdir", "rename", "mkdir", "rmdir", "creat",
   "link", "unlink", "symlink", "readlink", "chmod", "fchmod", "chown", "fchown", "lchown",
   "umask", "gettimeofday", "getrlimit", "getrusage", "sysinfo", "times", "ptrace"]

/-- Calls that concern the network. -/
def networkCalls : List String :=
  ["socket", "socketpair", "connect", "accept", "accept4", "bind", "listen", "shutdown",
   "sendto", "recvfrom", "sendmsg", "recvmsg", "sendmmsg", "recvmmsg", "getsockname",
   "getpeername", "setsockopt", "getsockopt", "socketcall"]

/-- Calls that concern files. -/
def filesystemCalls : List String :=
  ["read", "write", "open", "close", "stat", "fstat", "lstat", "poll", "lseek", "access",
   "mkdir", "rename", "rmdir", "creat", "link", "unlink", "symlink", "readlink", "chmod",
   "fchmod", "chown", "fchown", "lchown", "umask"]

/-- Calls that concern processes and their memory. -/
def processCalls : List String :=
  ["mmap", "mprotect", "brk", "clone", "fork", "vfork", "execve", "exit", "kill", "chdir",
   "fchdir", "sysinfo", "ptrace"]

/-- The table of these calls. -/
def callTable : CallTable where
  indexOf name := (callNames.idxOf? name).map UInt32.ofNat
  isNetwork name := networkCalls.contains name
  isFilesystem name := filesystemCalls.contains name
  isProcess name := processCalls.contains name

end CallTrace.Linux
